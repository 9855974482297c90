import Mathlib.Data.List.Basic

/-! # The probe event vocabulary

`ProbeEvent` is the public event type of the instrumentation SDK: what tracked primitives and the
probe hooks hand to `emit`, and what a capture returns. The async enumerations mirror the runtime's
own ones. `Custom` keeps its JSON metadata as text, which nothing in this development inspects.
-/

namespace Laplace.Model

/-- Acquisition mode of the async lock family. -/
inductive AsyncAcquireKind where
  | mutex
  | rwRead
  | rwWrite
  | semaphorePermits (permits : UInt32)
deriving DecidableEq, Repr

inductive AsyncChannelKind where
  | mpscBounded (capacity : ℕ)
  | mpscUnbounded
  | oneshot
  | watch
deriving DecidableEq, Repr

inductive AsyncChannelSide where
  | sender
  | receiver
deriving DecidableEq, Repr

inductive AsyncChannelOp where
  | send
  | recv
  | changed
deriving DecidableEq, Repr

inductive AsyncChannelOutcome where
  | ok
  | closed
  | empty
  | full
deriving DecidableEq, Repr

inductive BroadcastOp where
  | send
  | recv
  | tryRecv
  | resubscribe
deriving DecidableEq, Repr

inductive BroadcastOutcome where
  | ok (receivers : ℕ)
  | closed
  | empty
  | lagged (missed : UInt64)
deriving DecidableEq, Repr

/-- One runtime event, in the order of the source's variants. -/
inductive ProbeEvent where
  | threadBlocked (threadId : UInt64) (blockedOn : String)
  | lockAcquired (threadId : UInt64) (resource : String)
  | lockReleased (threadId : UInt64) (resource : String)
  | dbQuery (query : String) (durationUs : UInt64)
  | httpRequest (method path : String) (statusCode : UInt16)
  | custom (name metadata : String)
  | rwLockReadAcquired (threadId : UInt64) (resource : String)
  | rwLockReadReleased (threadId : UInt64) (resource : String)
  | rwLockWriteAcquired (threadId : UInt64) (resource : String)
  | rwLockWriteReleased (threadId : UInt64) (resource : String)
  | atomicLoad (threadId : UInt64) (resource : String)
  | atomicStore (threadId : UInt64) (resource : String)
  | atomicRmw (threadId : UInt64) (resource : String)
  | semaphoreAcquired (threadId : UInt64) (resource : String)
  | semaphoreReleased (threadId : UInt64) (resource : String)
  | taskSpawned (taskId : UInt64) (parentTaskId : Option UInt64) (sourceLocation : Option String)
  | taskPolled (taskId pollAttemptId : UInt64)
  | futurePending (taskId : UInt64) (futureId : Option UInt64) (pollAttemptId : UInt64)
  | futureReady (taskId : UInt64) (futureId : Option UInt64) (pollAttemptId : UInt64)
  | wakeIssued (sourceTaskId : Option UInt64) (targetTaskId wakerId : UInt64)
  | cancelRequested (taskId : UInt64)
  | taskCompleted (taskId : UInt64)
  | taskJoinRequested (threadId joinedTaskId : UInt64)
  | taskJoinResolved (threadId joinedTaskId : UInt64)
  | notifyWaiterRegistered (notifyId taskId : UInt64)
  | notifyStoredPermit (notifyId : UInt64) (bit : Bool)
  | notifyWakeEdge (notifyId : UInt64) (sourceTaskId : Option UInt64) (targetTaskId : UInt64)
  | notifyLatestWaker (notifyId taskId wakerId : UInt64)
  | notifyWakeCoalesced (notifyId : UInt64)
  | notifyWaiterCompleted (notifyId taskId : UInt64)
  | asyncLockRequested (threadId resource waiter : UInt64) (kind : AsyncAcquireKind)
  | asyncLockAcquired (threadId resource waiter : UInt64) (kind : AsyncAcquireKind)
  | asyncLockReleased (threadId resource waiter : UInt64) (kind : AsyncAcquireKind)
  | asyncLockWaiterDropped (threadId resource waiter : UInt64)
  | asyncSemaphoreCreated (threadId resource : UInt64) (permits : ℕ)
  | asyncPermitsAdded (threadId resource : UInt64) (n : ℕ)
  | asyncNotifyWaitRequested (threadId resource waiter : UInt64)
  | asyncNotifyWaitResolved (threadId resource waiter : UInt64)
  | asyncNotifyOne (threadId resource : UInt64)
  | asyncNotifyWaiters (threadId resource : UInt64)
  | asyncNotifyWaiterDropped (threadId resource waiter : UInt64)
  | asyncChannelCreated (threadId channel : UInt64) (kind : AsyncChannelKind)
  | asyncChannelOpRequested (threadId channel op : UInt64) (opKind : AsyncChannelOp)
  | asyncChannelOpResolved (threadId channel op : UInt64) (opKind : AsyncChannelOp)
      (outcome : AsyncChannelOutcome)
  | asyncChannelOpDropped (threadId channel op : UInt64)
  | asyncChannelEndpointCloned (threadId channel : UInt64) (side : AsyncChannelSide)
  | asyncChannelEndpointDropped (threadId channel : UInt64) (side : AsyncChannelSide)
  | asyncChannelClosed (threadId channel : UInt64)
  | asyncBroadcastCreated (threadId resource : UInt64) (capacity : ℕ)
  | asyncBroadcastSubscribed (threadId resource receiverId atSeq : UInt64)
  | asyncBroadcastOpRequested (threadId resource op : UInt64) (receiverId : Option UInt64)
      (opKind : BroadcastOp)
  | asyncBroadcastOpResolved (threadId resource op : UInt64) (receiverId : Option UInt64)
      (opKind : BroadcastOp) (outcome : BroadcastOutcome)
  | asyncBroadcastOpDropped (threadId resource op : UInt64)
  | asyncBroadcastEndpointCloned (threadId resource : UInt64) (side : AsyncChannelSide)
      (receiverId : Option UInt64)
  | asyncBroadcastEndpointDropped (threadId resource : UInt64) (side : AsyncChannelSide)
      (receiverId : Option UInt64)
  | asyncCellCreated (threadId resource : UInt64)
  | asyncCellLoad (threadId resource version : UInt64)
  | asyncCellStore (threadId resource version : UInt64)
deriving DecidableEq, Repr

end Laplace.Model
