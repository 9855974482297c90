import Laplace.Model.FutureRuns

/-! # Sequences of operations by one client

A client builds primitives and calls methods of what it holds, by position: primitives, endpoints, futures, guards and
permits. `Wrapped` holds the model wrappers and `Raw` the tokio objects themselves, of which a method is one call. A
method that an object does not have, or no longer has, is no operation, and neither is polling a future that was ready.
-/

namespace Laplace.Model.Client

open Laplace.Machine Laplace.Model.Runtime

variable {Value : Type}

inductive Construct (Value : Type) where
  | mutexNew (value : Value)
  | mutexConstNew (value : Value)
  | rwLockNew (value : Value)
  | rwLockConstNew (value : Value)
  | semaphoreNew (permits : ℕ)
  | semaphoreConstNew (permits : ℕ)
  | notifyNew
  | notifyConstNew
  | mpscChannel (buffer : ℕ)
  | unboundedChannel
  | oneshotChannel
  | watchChannel (init : Value)
  | broadcastChannel (capacity : ℕ)
deriving DecidableEq, Repr

inductive Method (Value : Type) where
  | lock
  | read
  | write
  | acquire
  | acquireMany (n : UInt32)
  | notified
  | send (value : Value)
  | recv
  | changed
  | poll
  | tryLock
  | tryRead
  | tryWrite
  | tryAcquire
  | tryAcquireMany (n : UInt32)
  | trySend (value : Value)
  | tryRecv
  | addPermits (n : ℕ)
  | notifyOne
  | notifyWaiters
  | forget
  | clone
  | subscribe
  | resubscribe
  | close
  | drop
deriving DecidableEq, Repr

/-- What the client sees of a result; the objects in it are added to what it holds. -/
inductive Answer (Value : Type) where
  | done
  | tried (result : Except Unit Unit)
  | triedPermit (result : Except TryAcquireError Unit)
  | polled (result : Poll Unit)
  | polledPermit (result : Poll (Except Unit Unit))
  | polledSend (result : Poll (Except Value Unit))
  | polledRecv (result : Poll (Option Value))
  | polledChanged (result : Poll (Except Unit Unit))
  | polledBroadcast (result : Poll (Except BroadcastRecvError Value))
  | polledOneshot (result : Poll (Except Unit Value))
  | trySent (result : Except (TrySendError Value) Unit)
  | sent (result : Except Value Unit)
  | broadcast (result : Except Value ℕ)
  | tryReceived (result : Except MpscTryRecvError Value)
  | tryReceivedOneshot (result : Except OneshotTryRecvError Value)
  | tryReceivedBroadcast (result : Except BroadcastTryRecvError Value)
deriving DecidableEq, Repr

/-- A call's answer, what it leaves of the object and the objects it made. -/
structure Called (Value Object : Type) where
  answer : Answer Value
  self : Object
  made : List Object := []

def isReady {α : Type} : Poll α → Bool
  | .pending => false
  | .ready _ => true

/-! ## The wrappers -/

inductive Wrapped where
  | mutex (self : ModelAsyncMutex)
  | rwLock (self : ModelAsyncRwLock)
  | semaphore (self : ModelAsyncSemaphore)
  | notify (self : ModelAsyncNotify)
  | mpscSender (self : ChannelEnd)
  | mpscReceiver (self : ChannelEnd)
  | unboundedSender (self : ChannelEnd)
  | unboundedReceiver (self : ChannelEnd)
  | oneshotSender (self : Oneshot.Sender)
  | watchSender (self : ChannelEnd)
  | watchReceiver (self : ChannelEnd)
  | broadcastSender (self : Broadcast.Sender)
  | broadcastReceiver (self : Broadcast.Receiver)
  /-- A future, a oneshot receiver among them, and whether it was ready. -/
  | future (self : Future) (ready : Bool)
  | kept (self : Kept)
  /-- Dropped or consumed. -/
  | gone
deriving DecidableEq, Repr

namespace Wrapped

def construct : Construct Value → RuntimeM Value (List Wrapped)
  | .mutexNew value => do return [.mutex (← ModelAsyncMutex.new value)]
  | .mutexConstNew value => do return [.mutex (← ModelAsyncMutex.constNew value)]
  | .rwLockNew value => do return [.rwLock (← ModelAsyncRwLock.new value)]
  | .rwLockConstNew value => do return [.rwLock (← ModelAsyncRwLock.constNew value)]
  | .semaphoreNew permits => do return [.semaphore (← ModelAsyncSemaphore.new permits)]
  | .semaphoreConstNew permits => do return [.semaphore (← ModelAsyncSemaphore.constNew permits)]
  | .notifyNew => do return [.notify (← ModelAsyncNotify.new)]
  | .notifyConstNew => do return [.notify (← ModelAsyncNotify.constNew)]
  | .mpscChannel buffer => do
    let (sender, receiver) ← Mpsc.channel buffer
    return [.mpscSender sender, .mpscReceiver receiver]
  | .unboundedChannel => do
    let (sender, receiver) ← Mpsc.unboundedChannel
    return [.unboundedSender sender, .unboundedReceiver receiver]
  | .oneshotChannel => do
    let (sender, receiver) ← Oneshot.channel
    return [.oneshotSender sender, .future (.oneshot receiver) false]
  | .watchChannel init => do
    let (sender, receiver) ← Watch.channel init
    return [.watchSender sender, .watchReceiver receiver]
  | .broadcastChannel capacity => do
    let (sender, receiver) ← Broadcast.channel capacity
    return [.broadcastSender sender, .broadcastReceiver receiver]

/-- A call that makes another endpoint. -/
def another (self : Wrapped) (make : RuntimeM Value Wrapped) : RuntimeM Value (Called Value Wrapped) := do
  return { answer := .done, self, made := [← make] }

/-- A call that makes a future. -/
def making (self : Wrapped) (make : RuntimeM Value Future) : RuntimeM Value (Called Value Wrapped) :=
  self.another do return .future (← make) false

/-- A call whose result is all that the client gets. -/
def result {α : Type} (self : Wrapped) (answer : α → Answer Value) (call : RuntimeM Value α) :
    RuntimeM Value (Called Value Wrapped) := do
  return { answer := answer (← call), self }

/-- A call without a result. -/
def acting (self : Wrapped) (call : RuntimeM Value Unit) : RuntimeM Value (Called Value Wrapped) :=
  self.result (fun _ => .done) call

/-- A call that consumes its object. -/
def dropping (call : RuntimeM Value Unit) : RuntimeM Value (Called Value Wrapped) := result .gone (fun _ => .done) call

/-- A non-blocking acquisition. -/
def tried {ε α : Type} (self : Wrapped) (answer : Except ε Unit → Answer Value) (keep : α → Kept)
    (attempt : RuntimeM Value (Except ε α)) : RuntimeM Value (Called Value Wrapped) := do
  match ← attempt with
  | .ok guard => return { answer := answer (.ok ()), self, made := [.kept (keep guard)] }
  | .error err => return { answer := answer (.error err), self }

/-- A poll that returns a guard. -/
def polledGuard (keep : Guard → Kept) (wrap : Awaiting → Future) (poll : RuntimeM Value (Poll Guard × Awaiting)) :
    RuntimeM Value (Called Value Wrapped) := do
  match ← poll with
  | (.pending, later) => return { answer := .polled .pending, self := .future (wrap later) false }
  | (.ready guard, later) =>
    return { answer := .polled (.ready ()), self := .future (wrap later) true, made := [.kept (keep guard)] }

/-- A poll that returns a value. -/
def polledValue {α : Type} (answer : Poll α → Answer Value) (wrap : Awaiting → Future)
    (poll : RuntimeM Value (Poll α × Awaiting)) : RuntimeM Value (Called Value Wrapped) := do
  let (polled, later) ← poll
  return { answer := answer polled, self := .future (wrap later) (isReady polled) }

def poll : Future → RuntimeM Value (Called Value Wrapped)
  | .lock self => polledGuard .mutexGuard .lock (ModelAsyncLock.poll self)
  | .read self => polledGuard .readGuard .read (ModelAsyncRead.poll self)
  | .write self => polledGuard .writeGuard .write (ModelAsyncWrite.poll self)
  | .acquire self => do
    match ← self.poll with
    | (.pending, later) => return { answer := .polledPermit .pending, self := .future (.acquire later) false }
    | (.ready (.ok permit), later) =>
      return {
        answer := .polledPermit (.ready (.ok ())), self := .future (.acquire later) true
        made := [.kept (.permit permit)] }
    | (.ready (.error err), later) =>
      return { answer := .polledPermit (.ready (.error err)), self := .future (.acquire later) true }
  | .notified self => polledValue .polled .notified (ModelNotified.poll self)
  | .send self => polledValue .polledSend .send (Mpsc.ModelMpscSend.poll self)
  | .recv self => polledValue .polledRecv .recv (Mpsc.ModelMpscRecv.poll self)
  | .changed self => polledValue .polledChanged .changed (Watch.ModelWatchChanged.poll self)
  | .broadcastRecv self => do
    let (polled, later) ← self.poll
    return { answer := .polledBroadcast polled, self := .future (.broadcastRecv later) (isReady polled) }
  | .oneshot self => polledValue .polledOneshot .oneshot (Oneshot.Receiver.poll self)

def call (self : Wrapped) (method : Method Value) : Option (RuntimeM Value (Called Value Wrapped)) :=
  match self, method with
  | .mutex primitive, .lock => some (self.making do return .lock (← ModelAsyncMutex.lock primitive))
  | .mutex primitive, .tryLock => some (self.tried .tried .mutexGuard (ModelAsyncMutex.tryLock primitive))
  | .mutex primitive, .drop => some (dropping (tokio (.dropPrimitive primitive.inner)))
  | .rwLock primitive, .read => some (self.making do return .read (← ModelAsyncRwLock.read primitive))
  | .rwLock primitive, .write => some (self.making do return .write (← ModelAsyncRwLock.write primitive))
  | .rwLock primitive, .tryRead => some (self.tried .tried .readGuard (ModelAsyncRwLock.tryRead primitive))
  | .rwLock primitive, .tryWrite => some (self.tried .tried .writeGuard (ModelAsyncRwLock.tryWrite primitive))
  | .rwLock primitive, .drop => some (dropping (tokio (.dropPrimitive primitive.inner)))
  | .semaphore primitive, .acquire => some (self.making do return .acquire (← primitive.acquire))
  | .semaphore primitive, .acquireMany n => some (self.making do return .acquire (← primitive.acquireMany n))
  | .semaphore primitive, .tryAcquire => some (self.tried .triedPermit .permit primitive.tryAcquire)
  | .semaphore primitive, .tryAcquireMany n => some (self.tried .triedPermit .permit (primitive.tryAcquireMany n))
  | .semaphore primitive, .addPermits n => some (self.acting (primitive.addPermits n))
  | .semaphore primitive, .drop => some (dropping (tokio (.dropPrimitive primitive.inner)))
  | .notify primitive, .notified => some (self.making do return .notified (← ModelAsyncNotify.notified primitive))
  | .notify primitive, .notifyOne => some (self.acting (ModelAsyncNotify.notifyOne primitive))
  | .notify primitive, .notifyWaiters => some (self.acting (ModelAsyncNotify.notifyWaiters primitive))
  | .notify primitive, .drop => some (dropping (tokio (.dropPrimitive primitive.inner)))
  | .mpscSender sender, .send value => some (self.making do return .send (← Mpsc.Sender.send sender value))
  | .mpscSender sender, .trySend value => some (self.result .trySent (Mpsc.Sender.trySend sender value))
  | .mpscSender sender, .clone => some (self.another do return .mpscSender (← Mpsc.Sender.clone sender))
  | .mpscSender sender, .drop => some (dropping (Mpsc.Sender.drop sender))
  | .mpscReceiver receiver, .recv => some (self.making do return .recv (← Mpsc.Receiver.recv receiver))
  | .mpscReceiver receiver, .tryRecv => some (self.result .tryReceived (Mpsc.Receiver.tryRecv receiver))
  | .mpscReceiver receiver, .close => some (self.acting (Mpsc.Receiver.close receiver))
  | .mpscReceiver receiver, .drop => some (dropping (Mpsc.Receiver.drop receiver))
  | .unboundedSender sender, .send value => some (self.result .sent (Mpsc.UnboundedSender.send sender value))
  | .unboundedSender sender, .clone =>
    some (self.another do return .unboundedSender (← Mpsc.UnboundedSender.clone sender))
  | .unboundedSender sender, .drop => some (dropping (Mpsc.UnboundedSender.drop sender))
  | .unboundedReceiver receiver, .recv =>
    some (self.making do return .recv (← Mpsc.UnboundedReceiver.recv receiver))
  | .unboundedReceiver receiver, .tryRecv => some (self.result .tryReceived (Mpsc.UnboundedReceiver.tryRecv receiver))
  | .unboundedReceiver receiver, .close =>
    some (self.acting (Mpsc.UnboundedReceiver.close receiver))
  | .unboundedReceiver receiver, .drop => some (dropping (Mpsc.UnboundedReceiver.drop receiver))
  | .oneshotSender sender, .send value => some (result .gone .sent (sender.send value))
  | .oneshotSender sender, .drop => some (dropping sender.drop)
  | .watchSender sender, .send value => some (self.result .sent (Watch.Sender.send sender value))
  | .watchSender sender, .clone => some (self.another do return .watchSender (← Watch.Sender.clone sender))
  | .watchSender sender, .subscribe => some (self.another do return .watchReceiver (← Watch.Sender.subscribe sender))
  | .watchSender sender, .drop => some (dropping (Watch.Sender.drop sender))
  | .watchReceiver receiver, .changed => some (self.making do return .changed (← Watch.Receiver.changed receiver))
  | .watchReceiver receiver, .clone => some (self.another do return .watchReceiver (← Watch.Receiver.clone receiver))
  | .watchReceiver receiver, .drop => some (dropping (Watch.Receiver.drop receiver))
  | .broadcastSender sender, .send value => some (self.result .broadcast (sender.send value))
  | .broadcastSender sender, .clone => some (self.another do return .broadcastSender (← sender.clone))
  | .broadcastSender sender, .subscribe => some (self.another do return .broadcastReceiver (← sender.subscribe))
  | .broadcastSender sender, .drop => some (dropping sender.drop)
  | .broadcastReceiver receiver, .recv => some (self.making do return .broadcastRecv (← receiver.recv))
  | .broadcastReceiver receiver, .tryRecv => some (self.result .tryReceivedBroadcast receiver.tryRecv)
  | .broadcastReceiver receiver, .resubscribe =>
    some (self.another do return .broadcastReceiver (← receiver.resubscribe))
  | .broadcastReceiver receiver, .drop => some (dropping receiver.drop)
  | .future (.oneshot receiver) _, .tryRecv =>
    some (self.result .tryReceivedOneshot (Oneshot.Receiver.tryRecv receiver))
  | .future (.oneshot receiver) _, .close => some (self.acting (Oneshot.Receiver.close receiver))
  | .future operation false, .poll => some (poll operation)
  | .future operation _, .drop => some (dropping operation.drop)
  | .kept (.permit permit), .forget => some (dropping permit.forget)
  | .kept held, .drop => some (dropping held.drop)
  | _, _ => none

end Wrapped

/-! ## The tokio objects -/

/-- A sequence of tokio calls. -/
abbrev Direct (Value : Type) := Program (Tokio Value) Tokio.Reply

abbrev direct (call : Tokio Value) : Direct Value call.Reply := Program.perform call

inductive Raw where
  | mutex (inner : Handle)
  | rwLock (inner : Handle)
  | semaphore (inner : Handle)
  | notify (inner : Handle)
  | mpscSender (inner : Handle)
  | mpscReceiver (inner : Handle)
  | unboundedSender (inner : Handle)
  | unboundedReceiver (inner : Handle)
  | oneshotSender (inner : Handle)
  | oneshotReceiver (inner : Handle) (ready : Bool)
  | watchSender (inner : Handle)
  | watchReceiver (inner : Handle)
  | broadcastSender (inner : Handle)
  | broadcastReceiver (inner : Handle)
  | future (kind : Awaitable) (inner : Handle) (ready : Bool)
  /-- The future of so many permits. -/
  | acquire (permits : UInt32) (inner : Handle) (ready : Bool)
  | guard (kind : AsyncAcquireKind) (inner : Handle)
  | gone
deriving DecidableEq, Repr

namespace Raw

def construct : Construct Value → Direct Value (List Raw)
  | .mutexNew value | .mutexConstNew value => do return [.mutex (← direct (.mutexNew value))]
  | .rwLockNew value | .rwLockConstNew value => do return [.rwLock (← direct (.rwLockNew value))]
  | .semaphoreNew permits | .semaphoreConstNew permits => do return [.semaphore (← direct (.semaphoreNew permits))]
  | .notifyNew | .notifyConstNew => do return [.notify (← direct .notifyNew)]
  | .mpscChannel buffer => do
    let (sender, receiver) ← direct (.mpscChannel buffer)
    return [.mpscSender sender, .mpscReceiver receiver]
  | .unboundedChannel => do
    let (sender, receiver) ← direct .unboundedChannel
    return [.unboundedSender sender, .unboundedReceiver receiver]
  | .oneshotChannel => do
    let (sender, receiver) ← direct .oneshotChannel
    return [.oneshotSender sender, .oneshotReceiver receiver false]
  | .watchChannel init => do
    let (sender, receiver) ← direct (.watchChannel init)
    return [.watchSender sender, .watchReceiver receiver]
  | .broadcastChannel capacity => do
    let (sender, receiver) ← direct (.broadcastChannel capacity)
    return [.broadcastSender sender, .broadcastReceiver receiver]

/-- A call that makes another object. -/
def making (self : Raw) (wrap : Handle → Raw) (make : Direct Value Handle) : Direct Value (Called Value Raw) := do
  return { answer := .done, self, made := [wrap (← make)] }

def result {α : Type} (self : Raw) (answer : α → Answer Value) (call : Direct Value α) :
    Direct Value (Called Value Raw) := do
  return { answer := answer (← call), self }

def acting (self : Raw) (call : Direct Value Unit) : Direct Value (Called Value Raw) :=
  self.result (fun _ => .done) call

def dropping (call : Direct Value Unit) : Direct Value (Called Value Raw) := result .gone (fun _ => .done) call

def tried {ε : Type} (self : Raw) (answer : Except ε Unit → Answer Value) (kind : AsyncAcquireKind)
    (attempt : Direct Value (Except ε Handle)) : Direct Value (Called Value Raw) := do
  match ← attempt with
  | .ok inner => return { answer := answer (.ok ()), self, made := [.guard kind inner] }
  | .error err => return { answer := answer (.error err), self }

def polledGuard (kind : AsyncAcquireKind) (wrap : Bool → Raw) (poll : Direct Value (Poll Handle)) :
    Direct Value (Called Value Raw) := do
  match ← poll with
  | .pending => return { answer := .polled .pending, self := wrap false }
  | .ready inner => return { answer := .polled (.ready ()), self := wrap true, made := [.guard kind inner] }

def polledPermit (permits : UInt32) (inner : Handle) (poll : Direct Value (Poll (Except Unit Handle))) :
    Direct Value (Called Value Raw) := do
  match ← poll with
  | .pending => return { answer := .polledPermit .pending, self := .acquire permits inner false }
  | .ready (.ok permit) =>
    return {
      answer := .polledPermit (.ready (.ok ())), self := .acquire permits inner true
      made := [.guard (.semaphorePermits permits) permit] }
  | .ready (.error err) =>
    return { answer := .polledPermit (.ready (.error err)), self := .acquire permits inner true }

def polledValue {α : Type} (answer : Poll α → Answer Value) (wrap : Bool → Raw) (poll : Direct Value (Poll α)) :
    Direct Value (Called Value Raw) := do
  let polled ← poll
  return { answer := answer polled, self := wrap (isReady polled) }

def poll (kind : Awaitable) (inner : Handle) : Option (Direct Value (Called Value Raw)) :=
  match kind with
  | .lock => some (polledGuard .mutex (.future .lock inner) (direct (.poll .lock inner)))
  | .read => some (polledGuard .rwRead (.future .read inner) (direct (.poll .read inner)))
  | .write => some (polledGuard .rwWrite (.future .write inner) (direct (.poll .write inner)))
  | .notified => some (polledValue .polled (.future .notified inner) (direct (.poll .notified inner)))
  | .send => some (polledValue .polledSend (.future .send inner) (direct (.poll .send inner)))
  | .recv => some (polledValue .polledRecv (.future .recv inner) (direct (.poll .recv inner)))
  | .changed => some (polledValue .polledChanged (.future .changed inner) (direct (.poll .changed inner)))
  | .broadcastRecv =>
    some (polledValue .polledBroadcast (.future .broadcastRecv inner) (direct (.poll .broadcastRecv inner)))
  | .acquire => none

def call (self : Raw) (method : Method Value) : Option (Direct Value (Called Value Raw)) :=
  match self, method with
  | .mutex inner, .lock => some (self.making (.future .lock · false) (direct (.lock inner)))
  | .mutex inner, .tryLock => some (self.tried .tried .mutex (direct (.tryLock inner)))
  | .mutex inner, .drop => some (dropping (direct (.dropPrimitive inner)))
  | .rwLock inner, .read => some (self.making (.future .read · false) (direct (.read inner)))
  | .rwLock inner, .write => some (self.making (.future .write · false) (direct (.write inner)))
  | .rwLock inner, .tryRead => some (self.tried .tried .rwRead (direct (.tryRead inner)))
  | .rwLock inner, .tryWrite => some (self.tried .tried .rwWrite (direct (.tryWrite inner)))
  | .rwLock inner, .drop => some (dropping (direct (.dropPrimitive inner)))
  | .semaphore inner, .acquire => some (self.making (.acquire 1 · false) (direct (.acquire inner)))
  | .semaphore inner, .acquireMany n => some (self.making (.acquire n · false) (direct (.acquireMany inner n)))
  | .semaphore inner, .tryAcquire => some (self.tried .triedPermit (.semaphorePermits 1) (direct (.tryAcquire inner)))
  | .semaphore inner, .tryAcquireMany n =>
    some (self.tried .triedPermit (.semaphorePermits n) (direct (.tryAcquireMany inner n)))
  | .semaphore inner, .addPermits n => some (self.acting (direct (.addPermits inner n)))
  | .semaphore inner, .drop => some (dropping (direct (.dropPrimitive inner)))
  | .notify inner, .notified => some (self.making (.future .notified · false) (direct (.notified inner)))
  | .notify inner, .notifyOne => some (self.acting (direct (.notifyOne inner)))
  | .notify inner, .notifyWaiters => some (self.acting (direct (.notifyWaiters inner)))
  | .notify inner, .drop => some (dropping (direct (.dropPrimitive inner)))
  | .mpscSender inner, .send value => some (self.making (.future .send · false) (direct (.send inner value)))
  | .mpscSender inner, .trySend value => some (self.result .trySent (direct (.trySend inner value)))
  | .mpscSender inner, .clone => some (self.making .mpscSender (direct (.cloneEndpoint .mpscSender inner)))
  | .mpscSender inner, .drop => some (dropping (direct (.dropEndpoint .mpscSender inner)))
  | .mpscReceiver inner, .recv => some (self.making (.future .recv · false) (direct (.recv inner)))
  | .mpscReceiver inner, .tryRecv => some (self.result .tryReceived (direct (.tryRecv inner)))
  | .mpscReceiver inner, .close => some (self.acting (direct (.close inner)))
  | .mpscReceiver inner, .drop => some (dropping (direct (.dropEndpoint .mpscReceiver inner)))
  | .unboundedSender inner, .send value => some (self.result .sent (direct (.unboundedSend inner value)))
  | .unboundedSender inner, .clone =>
    some (self.making .unboundedSender (direct (.cloneEndpoint .unboundedSender inner)))
  | .unboundedSender inner, .drop => some (dropping (direct (.dropEndpoint .unboundedSender inner)))
  | .unboundedReceiver inner, .recv => some (self.making (.future .recv · false) (direct (.unboundedRecv inner)))
  | .unboundedReceiver inner, .tryRecv => some (self.result .tryReceived (direct (.unboundedTryRecv inner)))
  | .unboundedReceiver inner, .close => some (self.acting (direct (.unboundedClose inner)))
  | .unboundedReceiver inner, .drop => some (dropping (direct (.dropEndpoint .unboundedReceiver inner)))
  | .oneshotSender inner, .send value => some (result .gone .sent (direct (.oneshotSend inner value)))
  | .oneshotSender inner, .drop => some (dropping (direct (.dropEndpoint .oneshotSender inner)))
  | .watchSender inner, .send value => some (self.result .sent (direct (.watchSend inner value)))
  | .watchSender inner, .clone => some (self.making .watchSender (direct (.cloneEndpoint .watchSender inner)))
  | .watchSender inner, .subscribe => some (self.making .watchReceiver (direct (.watchSubscribe inner)))
  | .watchSender inner, .drop => some (dropping (direct (.dropEndpoint .watchSender inner)))
  | .watchReceiver inner, .changed => some (self.making (.future .changed · false) (direct (.changed inner)))
  | .watchReceiver inner, .clone => some (self.making .watchReceiver (direct (.cloneEndpoint .watchReceiver inner)))
  | .watchReceiver inner, .drop => some (dropping (direct (.dropEndpoint .watchReceiver inner)))
  | .broadcastSender inner, .send value => some (self.result .broadcast (direct (.broadcastSend inner value)))
  | .broadcastSender inner, .clone =>
    some (self.making .broadcastSender (direct (.cloneEndpoint .broadcastSender inner)))
  | .broadcastSender inner, .subscribe => some (self.making .broadcastReceiver (direct (.broadcastSubscribe inner)))
  | .broadcastSender inner, .drop => some (dropping (direct (.dropEndpoint .broadcastSender inner)))
  | .broadcastReceiver inner, .recv =>
    some (self.making (.future .broadcastRecv · false) (direct (.broadcastRecv inner)))
  | .broadcastReceiver inner, .tryRecv => some (self.result .tryReceivedBroadcast (direct (.broadcastTryRecv inner)))
  | .broadcastReceiver inner, .resubscribe =>
    some (self.making .broadcastReceiver (direct (.broadcastResubscribe inner)))
  | .broadcastReceiver inner, .drop => some (dropping (direct (.dropEndpoint .broadcastReceiver inner)))
  | .oneshotReceiver inner _, .tryRecv => some (self.result .tryReceivedOneshot (direct (.oneshotTryRecv inner)))
  | .oneshotReceiver inner _, .close => some (self.acting (direct (.oneshotClose inner)))
  | .oneshotReceiver inner false, .poll =>
    some (polledValue .polledOneshot (.oneshotReceiver inner) (direct (.oneshotPoll inner)))
  | .oneshotReceiver inner _, .drop => some (dropping (direct (.dropEndpoint .oneshotReceiver inner)))
  | .acquire permits inner false, .poll => some (polledPermit permits inner (direct (.poll .acquire inner)))
  | .acquire _ inner _, .drop => some (dropping (direct (.dropFuture .acquire inner)))
  | .future kind inner false, .poll => poll kind inner
  | .future kind inner _, .drop => some (dropping (direct (.dropFuture kind inner)))
  | .guard (.semaphorePermits _) inner, .forget => some (dropping (direct (.forgetPermit inner)))
  | .guard kind inner, .drop => some (dropping (direct (.dropGuard kind inner)))
  | _, _ => none

end Raw

/-! ## Runs -/

inductive Operation (Value : Type) where
  | construct (what : Construct Value)
  | call (object : ℕ) (method : Method Value)
deriving DecidableEq, Repr

/-- What a client works with: the wrappers, or tokio. -/
structure Side (Value : Type) (Effect : Type) (Reply : Effect → Type) (Object : Type) where
  construct : Construct Value → Program Effect Reply (List Object)
  call : Object → Method Value → Option (Program Effect Reply (Called Value Object))

def wrappers : Side Value (Effect Value) Effect.Reply Wrapped := ⟨Wrapped.construct, Wrapped.call⟩

def tokioObjects : Side Value (Tokio Value) Tokio.Reply Raw := ⟨Raw.construct, Raw.call⟩

/-- What the client sees of an operation. -/
inductive Observed (Value : Type) where
  | answered (answer : Answer Value)
  | panicked
deriving DecidableEq, Repr

namespace Side

variable {Effect : Type} {Reply : Effect → Type} {Object State : Type}

/-- The program of an operation on these objects, which ends with the objects that the client then holds. -/
def program (side : Side Value Effect Reply Object) (objects : List Object) :
    Operation Value → Option (Program Effect Reply (Answer Value × List Object))
  | .construct what => some do
    let made ← side.construct what
    return (.done, objects ++ made)
  | .call object method =>
    (objects[object]?.bind (side.call · method)).map fun call => do
      let called ← call
      return (called.answer, objects.set object called.self ++ called.made)

/-- The outcomes of the operations, up to a panic, and the state in the end. -/
def run (side : Side Value Effect Reply Object)
    (handle : (effect : Effect) → State → Option (Reply effect × State)) :
    List (Operation Value) → List Object → State → List (Observed Value) × State
  | [], _, state => ([], state)
  | operation :: rest, objects, state =>
    match side.program objects operation with
    | none => side.run handle rest objects state
    | some program =>
      match program.run handle state with
      | (some (answer, objects), state) =>
        let (outcomes, state) := side.run handle rest objects state
        (.answered answer :: outcomes, state)
      | (none, state) => ([.panicked], state)

end Side

end Laplace.Model.Client
