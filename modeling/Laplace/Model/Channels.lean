import Laplace.Model.AsyncLocks

/-! # Model channels

The `mpsc` (bounded and unbounded), `oneshot`, `watch` and `broadcast` channels. The endpoints of `mpsc`
and `watch` share `ChannelEnd`; the operations that never wait share `resolveNow`, which reports after
the tokio call returned. A `broadcast` sender reports its clone before it clones, and every other
endpoint after; every drop is reported before tokio's endpoint is dropped.
-/

namespace Laplace.Model.Runtime

variable {Value : Type}

/-- An endpoint of `mpsc` or `watch`. -/
structure ChannelEnd where
  inner : Handle
  resource : UInt64
deriving DecidableEq, Repr

/-- Drop the tokio endpoints of a channel that could not be made. -/
def dropBoth (sender receiver : Endpoint) (inner : Handle × Handle) : RuntimeM Value Unit := do
  tokio (.dropEndpoint receiver inner.2)
  tokio (.dropEndpoint sender inner.1)

/-- The constructors of `mpsc` and `watch`. -/
def createChannel (sender receiver : Endpoint) (kind : AsyncChannelKind)
    (inner : RuntimeM Value (Handle × Handle)) : RuntimeM Value (ChannelEnd × ChannelEnd) := do
  let inner ← inner
  let resource ← nextAsyncLockResourceId (dropBoth sender receiver inner)
  withHook .channel (report (.channelCreated resource kind))
  return ({ inner := inner.1, resource }, { inner := inner.2, resource })

/-- The outcome of a call that can fail only because the other side is gone. -/
def closedOutcome {ε α : Type} : Except ε α → AsyncChannelOutcome
  | .ok _ => .ok
  | .error _ => .closed

/-- An operation that never waits: tokio's answer, then a fresh op id, then the report. -/
def resolveNow {α : Type} (resource : UInt64) (kind : AsyncChannelOp)
    (outcome : α → AsyncChannelOutcome) (call : RuntimeM Value α) : RuntimeM Value α := do
  let result ← call
  let op ← nextAsyncLockWaiterId (pure ())
  withHook .channel (report (.channelOpResolved resource op kind (outcome result)))
  return result

namespace ChannelEnd

/-- `Clone`: the tokio endpoint first, then the report. -/
def clone (endpoint : Endpoint) (side : AsyncChannelSide) (self : ChannelEnd) : RuntimeM Value ChannelEnd := do
  let cloned ← tokio (.cloneEndpoint endpoint self.inner)
  withHook .channel (report (.channelEndpointCloned self.resource side))
  return { inner := cloned, resource := self.resource }

/-- `Drop`: the report first, then the tokio endpoint. -/
def drop (endpoint : Endpoint) (side : AsyncChannelSide) (self : ChannelEnd) : RuntimeM Value Unit := do
  withHook .channel (report (.channelEndpointDropped self.resource side))
  tokio (.dropEndpoint endpoint self.inner)

/-- Poll a channel future whose answer is one of two outcomes. -/
def pollOp (kind : Awaitable) (op : AsyncChannelOp)
    (outcome : kind.Output Value → AsyncChannelOutcome) (self : Awaiting) :
    RuntimeM Value (Poll (kind.Output Value) × Awaiting) :=
  self.poll (tokio (.poll kind self.inner)) (fun event => withHook .channel (report event))
    (.channelOpRequested self.resource self.waiter op)
    fun value => some (.channelOpResolved self.resource self.waiter op (outcome value))

def dropOp (kind : Awaitable) (self : Awaiting) : RuntimeM Value Unit :=
  self.drop kind .channel (.channelOpDropped self.resource self.waiter)

/-- `close`: forwarded first, then reported. -/
def closeWith (call : RuntimeM Value Unit) (self : ChannelEnd) : RuntimeM Value Unit := do
  call
  withHook .channel (report (.channelClosed self.resource))

end ChannelEnd

namespace Mpsc

def channel (buffer : ℕ) : RuntimeM Value (ChannelEnd × ChannelEnd) :=
  createChannel .mpscSender .mpscReceiver (.mpscBounded buffer) (tokio (.mpscChannel buffer))

def unboundedChannel : RuntimeM Value (ChannelEnd × ChannelEnd) :=
  createChannel .unboundedSender .unboundedReceiver .mpscUnbounded (tokio .unboundedChannel)

def trySendOutcome : Except (TrySendError Value) Unit → AsyncChannelOutcome
  | .ok _ => .ok
  | .error (.full _) => .full
  | .error (.closed _) => .closed

def tryRecvOutcome : Except MpscTryRecvError Value → AsyncChannelOutcome
  | .ok _ => .ok
  | .error .empty => .empty
  | .error .disconnected => .closed

def recvOutcome : Option Value → AsyncChannelOutcome
  | some _ => .ok
  | none => .closed

namespace Sender

def clone (self : ChannelEnd) : RuntimeM Value ChannelEnd := self.clone .mpscSender .sender

def drop (self : ChannelEnd) : RuntimeM Value Unit := self.drop .mpscSender .sender

def send (self : ChannelEnd) (value : Value) : RuntimeM Value Awaiting :=
  Awaiting.start self.resource (tokio (.send self.inner value))

def trySend (self : ChannelEnd) (message : Value) : RuntimeM Value (Except (TrySendError Value) Unit) :=
  resolveNow self.resource .send trySendOutcome (tokio (.trySend self.inner message))

end Sender

namespace ModelMpscSend

def poll (self : Awaiting) : RuntimeM Value (Poll (Except Value Unit) × Awaiting) :=
  ChannelEnd.pollOp .send .send closedOutcome self

def drop (self : Awaiting) : RuntimeM Value Unit := ChannelEnd.dropOp .send self

end ModelMpscSend

namespace Receiver

def drop (self : ChannelEnd) : RuntimeM Value Unit := self.drop .mpscReceiver .receiver

def recv (self : ChannelEnd) : RuntimeM Value Awaiting :=
  Awaiting.start self.resource (tokio (.recv self.inner))

def tryRecv (self : ChannelEnd) : RuntimeM Value (Except MpscTryRecvError Value) :=
  resolveNow self.resource .recv tryRecvOutcome (tokio (.tryRecv self.inner))

def close (self : ChannelEnd) : RuntimeM Value Unit := self.closeWith (tokio (.close self.inner))

end Receiver

namespace ModelMpscRecv

def poll (self : Awaiting) : RuntimeM Value (Poll (Option Value) × Awaiting) :=
  ChannelEnd.pollOp .recv .recv recvOutcome self

def drop (self : Awaiting) : RuntimeM Value Unit := ChannelEnd.dropOp .recv self

end ModelMpscRecv

namespace UnboundedSender

def clone (self : ChannelEnd) : RuntimeM Value ChannelEnd := self.clone .unboundedSender .sender

def drop (self : ChannelEnd) : RuntimeM Value Unit := self.drop .unboundedSender .sender

def send (self : ChannelEnd) (message : Value) : RuntimeM Value (Except Value Unit) :=
  resolveNow self.resource .send closedOutcome (tokio (.unboundedSend self.inner message))

end UnboundedSender

namespace UnboundedReceiver

def drop (self : ChannelEnd) : RuntimeM Value Unit := self.drop .unboundedReceiver .receiver

def recv (self : ChannelEnd) : RuntimeM Value Awaiting :=
  Awaiting.start self.resource (tokio (.unboundedRecv self.inner))

def tryRecv (self : ChannelEnd) : RuntimeM Value (Except MpscTryRecvError Value) :=
  resolveNow self.resource .recv tryRecvOutcome (tokio (.unboundedTryRecv self.inner))

def close (self : ChannelEnd) : RuntimeM Value Unit := self.closeWith (tokio (.unboundedClose self.inner))

end UnboundedReceiver

end Mpsc

namespace Oneshot

structure Sender where
  inner : Option Handle
  resource : UInt64
deriving DecidableEq, Repr

/-- The receiver is its own future; its op id is allocated with the channel. -/
def channel : RuntimeM Value (Sender × Awaiting) := do
  let inner ← tokio .oneshotChannel
  let resource ← nextAsyncLockResourceId (dropBoth .oneshotSender .oneshotReceiver inner)
  withHook .channel (report (.channelCreated resource .oneshot))
  let op ← nextAsyncLockWaiterId (dropBoth .oneshotSender .oneshotReceiver inner)
  return ({ inner := some inner.1, resource }, { resource, waiter := op, inner := inner.2 })

def tryRecvOutcome : Except OneshotTryRecvError Value → AsyncChannelOutcome
  | .ok _ => .ok
  | .error .empty => .empty
  | .error .closed => .closed

namespace Sender

/-- A sender whose tokio sender was taken is dropped silently. -/
def drop (self : Sender) : RuntimeM Value Unit := do
  match self.inner with
  | some inner =>
    withHook .channel (report (.channelEndpointDropped self.resource .sender))
    tokio (.dropEndpoint .oneshotSender inner)
  | none => pure ()

/-- `send` takes the tokio sender, which tokio consumes; what is left of the sender is dropped. -/
def send (self : Sender) (value : Value) : RuntimeM Value (Except Value Unit) := do
  match self.inner with
  | none => panic "oneshot Sender inner missing"
  | some inner =>
    let result ← resolveNow self.resource .send closedOutcome (tokio (.oneshotSend inner value))
    { self with inner := none }.drop
    return result

end Sender

namespace Receiver

def tryRecv (self : Awaiting) : RuntimeM Value (Except OneshotTryRecvError Value) :=
  resolveNow self.resource .recv tryRecvOutcome (tokio (.oneshotTryRecv self.inner))

def close (self : Awaiting) : RuntimeM Value Unit :=
  ChannelEnd.closeWith (tokio (.oneshotClose self.inner)) { inner := self.inner, resource := self.resource }

def poll (self : Awaiting) : RuntimeM Value (Poll (Except Unit Value) × Awaiting) :=
  self.poll (tokio (.oneshotPoll self.inner)) (fun event => withHook .channel (report event))
    (.channelOpRequested self.resource self.waiter .recv)
    fun result => some (.channelOpResolved self.resource self.waiter .recv (closedOutcome result))

/-- Unlike the boxed futures, the receiver reports two ends: of its receive and of itself. -/
def drop (self : Awaiting) : RuntimeM Value Unit := do
  withHook .channel do
    if self.requestedEmitted && !self.resolved then
      report (.channelOpDropped self.resource self.waiter)
    report (.channelEndpointDropped self.resource .receiver)
  tokio (.dropEndpoint .oneshotReceiver self.inner)

end Receiver

end Oneshot

namespace Watch

def channel (init : Value) : RuntimeM Value (ChannelEnd × ChannelEnd) :=
  createChannel .watchSender .watchReceiver .watch (tokio (.watchChannel init))

namespace Sender

def clone (self : ChannelEnd) : RuntimeM Value ChannelEnd := self.clone .watchSender .sender

def drop (self : ChannelEnd) : RuntimeM Value Unit := self.drop .watchSender .sender

def send (self : ChannelEnd) (value : Value) : RuntimeM Value (Except Value Unit) :=
  resolveNow self.resource .send closedOutcome (tokio (.watchSend self.inner value))

def subscribe (self : ChannelEnd) : RuntimeM Value ChannelEnd := do
  let inner ← tokio (.watchSubscribe self.inner)
  withHook .channel (report (.channelEndpointCloned self.resource .receiver))
  return { inner, resource := self.resource }

end Sender

namespace Receiver

def clone (self : ChannelEnd) : RuntimeM Value ChannelEnd := self.clone .watchReceiver .receiver

def drop (self : ChannelEnd) : RuntimeM Value Unit := self.drop .watchReceiver .receiver

def changed (self : ChannelEnd) : RuntimeM Value Awaiting :=
  Awaiting.start self.resource (tokio (.changed self.inner))

end Receiver

namespace ModelWatchChanged

def poll (self : Awaiting) : RuntimeM Value (Poll (Except Unit Unit) × Awaiting) :=
  ChannelEnd.pollOp .changed .changed closedOutcome self

def drop (self : Awaiting) : RuntimeM Value Unit := ChannelEnd.dropOp .changed self

end ModelWatchChanged

end Watch

namespace Broadcast

structure Sender where
  inner : Handle
  resource : UInt64
  sendSeq : Handle
deriving DecidableEq, Repr

structure Receiver where
  inner : Handle
  resource : UInt64
  id : UInt64
  sendSeq : Handle
deriving DecidableEq, Repr

structure ModelBroadcastRecv extends Awaiting where
  receiverId : UInt64
deriving DecidableEq, Repr

def channel (capacity : ℕ) : RuntimeM Value (Sender × Receiver) := do
  let inner ← tokio (.broadcastChannel capacity)
  let resource ← nextAsyncLockResourceId (dropBoth .broadcastSender .broadcastReceiver inner)
  let sendSeq ← perform (.newAtomic 0)
  let receiverId ← nextAsyncLockWaiterId (dropBoth .broadcastSender .broadcastReceiver inner)
  withHook .broadcast do
    report (.broadcastCreated resource capacity)
    report (.broadcastSubscribed resource receiverId 0)
  return ({ inner := inner.1, resource, sendSeq }, { inner := inner.2, resource, id := receiverId, sendSeq })

def sendOutcome : Except Value ℕ → BroadcastOutcome
  | .ok receivers => .ok receivers
  | .error _ => .closed

def recvOutcome : Except BroadcastRecvError Value → BroadcastOutcome
  | .ok _ => .ok 1
  | .error .closed => .closed
  | .error (.lagged missed) => .lagged missed

def tryRecvOutcome : Except BroadcastTryRecvError Value → BroadcastOutcome
  | .ok _ => .ok 1
  | .error .empty => .empty
  | .error .closed => .closed
  | .error (.lagged missed) => .lagged missed

namespace Sender

def clone (self : Sender) : RuntimeM Value Sender := do
  withHook .broadcast (report (.broadcastEndpointCloned self.resource .sender none))
  return { self with inner := ← tokio (.cloneEndpoint .broadcastSender self.inner) }

def drop (self : Sender) : RuntimeM Value Unit := do
  withHook .broadcast (report (.broadcastEndpointDropped self.resource .sender none))
  tokio (.dropEndpoint .broadcastSender self.inner)

def send (self : Sender) (value : Value) : RuntimeM Value (Except Value ℕ) := do
  let op ← nextAsyncLockWaiterId (pure ())
  withHook .broadcast (report (.broadcastOpRequested self.resource op none .send))
  let result ← tokio (.broadcastSend self.inner value)
  match result with
  | .ok _ => discard (perform (.fetchAdd self.sendSeq 1))
  | .error _ => pure ()
  withHook .broadcast (report (.broadcastOpResolved self.resource op none .send (sendOutcome result)))
  return result

def subscribe (self : Sender) : RuntimeM Value Receiver := do
  let inner ← tokio (.broadcastSubscribe self.inner)
  let id ← nextAsyncLockWaiterId (tokio (.dropEndpoint .broadcastReceiver inner))
  withHook .broadcast do
    report (.broadcastEndpointCloned self.resource .receiver (some id))
    let atSeq ← perform (.load self.sendSeq)
    report (.broadcastSubscribed self.resource id atSeq)
  return { inner, resource := self.resource, id, sendSeq := self.sendSeq }

end Sender

namespace Receiver

def drop (self : Receiver) : RuntimeM Value Unit := do
  withHook .broadcast (report (.broadcastEndpointDropped self.resource .receiver (some self.id)))
  tokio (.dropEndpoint .broadcastReceiver self.inner)

def resubscribe (self : Receiver) : RuntimeM Value Receiver := do
  let op ← nextAsyncLockWaiterId (pure ())
  let inner ← tokio (.broadcastResubscribe self.inner)
  let id ← nextAsyncLockWaiterId (tokio (.dropEndpoint .broadcastReceiver inner))
  withHook .broadcast do
    report (.broadcastEndpointCloned self.resource .receiver (some id))
    let atSeq ← perform (.load self.sendSeq)
    report (.broadcastSubscribed self.resource id atSeq)
    report (.broadcastOpResolved self.resource op (some self.id) .resubscribe (.ok 1))
  return { self with inner, id }

def recv (self : Receiver) : RuntimeM Value ModelBroadcastRecv := do
  let future ← Awaiting.start self.resource (tokio (.broadcastRecv self.inner))
  return { future with receiverId := self.id }

def tryRecv (self : Receiver) : RuntimeM Value (Except BroadcastTryRecvError Value) := do
  let op ← nextAsyncLockWaiterId (pure ())
  let result ← tokio (.broadcastTryRecv self.inner)
  withHook .broadcast
    (report (.broadcastOpResolved self.resource op (some self.id) .tryRecv (tryRecvOutcome result)))
  return result

end Receiver

namespace ModelBroadcastRecv

def poll (self : ModelBroadcastRecv) :
    RuntimeM Value (Poll (Except BroadcastRecvError Value) × ModelBroadcastRecv) := do
  let (answer, future) ← self.toAwaiting.poll (tokio (.poll .broadcastRecv self.inner))
    (fun event => withHook .broadcast (report event))
    (.broadcastOpRequested self.resource self.waiter (some self.receiverId) .recv)
    fun result => some
      (.broadcastOpResolved self.resource self.waiter (some self.receiverId) .recv (recvOutcome result))
  return (answer, { self with toAwaiting := future })

def drop (self : ModelBroadcastRecv) : RuntimeM Value Unit :=
  self.toAwaiting.drop .broadcastRecv .broadcast (.broadcastOpDropped self.resource self.waiter)

end ModelBroadcastRecv

end Broadcast

end Laplace.Model.Runtime
