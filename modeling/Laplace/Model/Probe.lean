import Laplace.Machine.Allocator
import Laplace.Model.ProbeEvent

/-! # Probe hooks and thread ids

The process-wide and thread-local state through which model primitives, tracked primitives and task
wrappers reach `emit`: the installed hooks, the id counters, the legacy sinks, and
`PROBE_THREAD_ID`. A resource, waiter, guard or dynamic task is named by the body that uses it; the
id it was given stands in a table, so that one body can be run from different counters.

Each entry of a session carries, beside the event, the context that emitted it and the acquisition
it belongs to. `lastPolled`, `owner` and `acquiredUnder` record the same for the properties; nothing
here reads them back.
-/

namespace Laplace.Model.Probe

open Laplace.Machine

abbrev Thread := ℕ

/-- The channel behind a legacy sink. -/
abbrev Sink := ℕ

/-- A model primitive is made by the body that uses it, or stands in a static of the process. -/
inductive Handle where
  | own (index : ℕ)
  | shared (index : ℕ)
deriving DecidableEq, Repr

inductive TaskRef where
  /-- Position in the harness's `TaskSet`. -/
  | registered (index : ℕ)
  /-- A task of `spawn_task`. -/
  | dynamic (index : ℕ)
deriving DecidableEq, Repr

/-- What executes: a task while it is polled, else the OS thread itself. -/
inductive Context where
  | thread (thread : Thread)
  | task (task : TaskRef)
deriving DecidableEq, Repr

def Context.isTask : Context → Bool
  | .task _ => true
  | .thread _ => false

/-- One acquisition, named by its guard or by its waiter. -/
inductive Acquisition where
  /-- A guard of a model mutex or model read-write lock. -/
  | guard (index : ℕ)
  /-- An async acquisition: its future, then its guard or permit. -/
  | waiter (index : ℕ)
  /-- A use of a tracked primitive, which keeps the thread id it read. -/
  | tracked (index : ℕ)
deriving DecidableEq, Repr

structure Entry where
  context : Context
  acquisition : Option Acquisition
  event : ProbeEvent
deriving DecidableEq, Repr

/-- The calls of the async hook traits, over the types that name resources and waiters. -/
inductive AsyncReport (Resource Waiter : Type) where
  | requested (resource : Resource) (waiter : Waiter) (kind : AsyncAcquireKind)
  | acquired (resource : Resource) (waiter : Waiter) (kind : AsyncAcquireKind)
  | released (resource : Resource) (waiter : Waiter) (kind : AsyncAcquireKind)
  | waiterDropped (resource : Resource) (waiter : Waiter)
  | semaphoreCreated (resource : Resource) (permits : ℕ)
  | permitsAdded (resource : Resource) (n : ℕ)
  | notifyWaitRequested (resource : Resource) (waiter : Waiter)
  | notifyWaitResolved (resource : Resource) (waiter : Waiter)
  | notifyOne (resource : Resource)
  | notifyWaiters (resource : Resource)
  | notifyWaiterDropped (resource : Resource) (waiter : Waiter)
  | channelCreated (channel : Resource) (kind : AsyncChannelKind)
  | channelOpRequested (channel : Resource) (op : Waiter) (kind : AsyncChannelOp)
  | channelOpResolved (channel : Resource) (op : Waiter) (kind : AsyncChannelOp)
      (outcome : AsyncChannelOutcome)
  | channelOpDropped (channel : Resource) (op : Waiter)
  | channelEndpointCloned (channel : Resource) (side : AsyncChannelSide)
  | channelEndpointDropped (channel : Resource) (side : AsyncChannelSide)
  | channelClosed (channel : Resource)
  | broadcastCreated (resource : Resource) (capacity : ℕ)
  | broadcastSubscribed (resource : Resource) (receiver : Waiter) (atSeq : UInt64)
  | broadcastOpRequested (resource : Resource) (op : Waiter) (receiver : Option Waiter)
      (kind : BroadcastOp)
  | broadcastOpResolved (resource : Resource) (op : Waiter) (receiver : Option Waiter)
      (kind : BroadcastOp) (outcome : BroadcastOutcome)
  | broadcastOpDropped (resource : Resource) (op : Waiter)
  | broadcastEndpointCloned (resource : Resource) (side : AsyncChannelSide) (receiver : Option Waiter)
  | broadcastEndpointDropped (resource : Resource) (side : AsyncChannelSide) (receiver : Option Waiter)
  | cellCreated (resource : Resource)
  | cellLoad (resource : Resource) (version : UInt64)
  | cellStore (resource : Resource) (version : UInt64)
deriving DecidableEq, Repr

namespace AsyncReport

variable {Resource Waiter Resource' Waiter' : Type}

def map (f : Resource → Resource') (g : Waiter → Waiter') :
    AsyncReport Resource Waiter → AsyncReport Resource' Waiter'
  | .requested resource waiter kind => .requested (f resource) (g waiter) kind
  | .acquired resource waiter kind => .acquired (f resource) (g waiter) kind
  | .released resource waiter kind => .released (f resource) (g waiter) kind
  | .waiterDropped resource waiter => .waiterDropped (f resource) (g waiter)
  | .semaphoreCreated resource permits => .semaphoreCreated (f resource) permits
  | .permitsAdded resource n => .permitsAdded (f resource) n
  | .notifyWaitRequested resource waiter => .notifyWaitRequested (f resource) (g waiter)
  | .notifyWaitResolved resource waiter => .notifyWaitResolved (f resource) (g waiter)
  | .notifyOne resource => .notifyOne (f resource)
  | .notifyWaiters resource => .notifyWaiters (f resource)
  | .notifyWaiterDropped resource waiter => .notifyWaiterDropped (f resource) (g waiter)
  | .channelCreated channel kind => .channelCreated (f channel) kind
  | .channelOpRequested channel op kind => .channelOpRequested (f channel) (g op) kind
  | .channelOpResolved channel op kind outcome => .channelOpResolved (f channel) (g op) kind outcome
  | .channelOpDropped channel op => .channelOpDropped (f channel) (g op)
  | .channelEndpointCloned channel side => .channelEndpointCloned (f channel) side
  | .channelEndpointDropped channel side => .channelEndpointDropped (f channel) side
  | .channelClosed channel => .channelClosed (f channel)
  | .broadcastCreated resource capacity => .broadcastCreated (f resource) capacity
  | .broadcastSubscribed resource receiver atSeq => .broadcastSubscribed (f resource) (g receiver) atSeq
  | .broadcastOpRequested resource op receiver kind =>
      .broadcastOpRequested (f resource) (g op) (receiver.map g) kind
  | .broadcastOpResolved resource op receiver kind outcome =>
      .broadcastOpResolved (f resource) (g op) (receiver.map g) kind outcome
  | .broadcastOpDropped resource op => .broadcastOpDropped (f resource) (g op)
  | .broadcastEndpointCloned resource side receiver =>
      .broadcastEndpointCloned (f resource) side (receiver.map g)
  | .broadcastEndpointDropped resource side receiver =>
      .broadcastEndpointDropped (f resource) side (receiver.map g)
  | .cellCreated resource => .cellCreated (f resource)
  | .cellLoad resource version => .cellLoad (f resource) version
  | .cellStore resource version => .cellStore (f resource) version

def resource : AsyncReport Resource Waiter → Resource
  | .requested resource .. | .acquired resource .. | .released resource ..
  | .waiterDropped resource _ | .semaphoreCreated resource _ | .permitsAdded resource _
  | .notifyWaitRequested resource _ | .notifyWaitResolved resource _ | .notifyOne resource
  | .notifyWaiters resource | .notifyWaiterDropped resource _ | .channelCreated resource _
  | .channelOpRequested resource .. | .channelOpResolved resource .. | .channelOpDropped resource _
  | .channelEndpointCloned resource _ | .channelEndpointDropped resource _ | .channelClosed resource
  | .broadcastCreated resource _ | .broadcastSubscribed resource .. | .broadcastOpRequested resource ..
  | .broadcastOpResolved resource .. | .broadcastOpDropped resource _
  | .broadcastEndpointCloned resource .. | .broadcastEndpointDropped resource ..
  | .cellCreated resource | .cellLoad resource _ | .cellStore resource _ => resource

/-- Waiter, operation and receiver ids come from one counter. -/
def waiters : AsyncReport Resource Waiter → List Waiter
  | .requested _ waiter _ | .acquired _ waiter _ | .released _ waiter _ | .waiterDropped _ waiter
  | .notifyWaitRequested _ waiter | .notifyWaitResolved _ waiter | .notifyWaiterDropped _ waiter
  | .channelOpRequested _ waiter _ | .channelOpResolved _ waiter .. | .channelOpDropped _ waiter
  | .broadcastSubscribed _ waiter _ | .broadcastOpDropped _ waiter => [waiter]
  | .broadcastOpRequested _ op receiver _ | .broadcastOpResolved _ op receiver .. => op :: receiver.toList
  | .broadcastEndpointCloned _ _ receiver | .broadcastEndpointDropped _ _ receiver => receiver.toList
  | .semaphoreCreated .. | .permitsAdded .. | .notifyOne _ | .notifyWaiters _ | .channelCreated ..
  | .channelEndpointCloned .. | .channelEndpointDropped .. | .channelClosed _ | .broadcastCreated ..
  | .cellCreated _ | .cellLoad .. | .cellStore .. => []

/-- The lock family's reports belong to the acquisition of their waiter. -/
def acquisition : AsyncReport Resource ℕ → Option Acquisition
  | .requested _ waiter _ | .acquired _ waiter _ | .released _ waiter _ | .waiterDropped _ waiter =>
      some (.waiter waiter)
  | _ => none

/-- What the probe's async hooks emit for a call made under a thread id. -/
def event (threadId : UInt64) : AsyncReport UInt64 UInt64 → ProbeEvent
  | .requested resource waiter kind => .asyncLockRequested threadId resource waiter kind
  | .acquired resource waiter kind => .asyncLockAcquired threadId resource waiter kind
  | .released resource waiter kind => .asyncLockReleased threadId resource waiter kind
  | .waiterDropped resource waiter => .asyncLockWaiterDropped threadId resource waiter
  | .semaphoreCreated resource permits => .asyncSemaphoreCreated threadId resource permits
  | .permitsAdded resource n => .asyncPermitsAdded threadId resource n
  | .notifyWaitRequested resource waiter => .asyncNotifyWaitRequested threadId resource waiter
  | .notifyWaitResolved resource waiter => .asyncNotifyWaitResolved threadId resource waiter
  | .notifyOne resource => .asyncNotifyOne threadId resource
  | .notifyWaiters resource => .asyncNotifyWaiters threadId resource
  | .notifyWaiterDropped resource waiter => .asyncNotifyWaiterDropped threadId resource waiter
  | .channelCreated channel kind => .asyncChannelCreated threadId channel kind
  | .channelOpRequested channel op kind => .asyncChannelOpRequested threadId channel op kind
  | .channelOpResolved channel op kind outcome =>
      .asyncChannelOpResolved threadId channel op kind outcome
  | .channelOpDropped channel op => .asyncChannelOpDropped threadId channel op
  | .channelEndpointCloned channel side => .asyncChannelEndpointCloned threadId channel side
  | .channelEndpointDropped channel side => .asyncChannelEndpointDropped threadId channel side
  | .channelClosed channel => .asyncChannelClosed threadId channel
  | .broadcastCreated resource capacity => .asyncBroadcastCreated threadId resource capacity
  | .broadcastSubscribed resource receiver atSeq =>
      .asyncBroadcastSubscribed threadId resource receiver atSeq
  | .broadcastOpRequested resource op receiver kind =>
      .asyncBroadcastOpRequested threadId resource op receiver kind
  | .broadcastOpResolved resource op receiver kind outcome =>
      .asyncBroadcastOpResolved threadId resource op receiver kind outcome
  | .broadcastOpDropped resource op => .asyncBroadcastOpDropped threadId resource op
  | .broadcastEndpointCloned resource side receiver =>
      .asyncBroadcastEndpointCloned threadId resource side receiver
  | .broadcastEndpointDropped resource side receiver =>
      .asyncBroadcastEndpointDropped threadId resource side receiver
  | .cellCreated resource => .asyncCellCreated threadId resource
  | .cellLoad resource version => .asyncCellLoad threadId resource version
  | .cellStore resource version => .asyncCellStore threadId resource version

end AsyncReport

/-- The events that tracked primitives emit, under the name their resource was given. -/
inductive TrackedKind where
  | lockAcquired
  | lockReleased
  | rwLockReadAcquired
  | rwLockReadReleased
  | rwLockWriteAcquired
  | rwLockWriteReleased
  | atomicLoad
  | atomicStore
  | atomicRmw
  | semaphoreAcquired
  | semaphoreReleased
deriving DecidableEq, Repr

def TrackedKind.event (threadId : UInt64) (resource : String) : TrackedKind → ProbeEvent
  | .lockAcquired => .lockAcquired threadId resource
  | .lockReleased => .lockReleased threadId resource
  | .rwLockReadAcquired => .rwLockReadAcquired threadId resource
  | .rwLockReadReleased => .rwLockReadReleased threadId resource
  | .rwLockWriteAcquired => .rwLockWriteAcquired threadId resource
  | .rwLockWriteReleased => .rwLockWriteReleased threadId resource
  | .atomicLoad => .atomicLoad threadId resource
  | .atomicStore => .atomicStore threadId resource
  | .atomicRmw => .atomicRmw threadId resource
  | .semaphoreAcquired => .semaphoreAcquired threadId resource
  | .semaphoreReleased => .semaphoreReleased threadId resource

/-- The lock hook's name for a model mutex. -/
def resourceName (resource : UInt64) : String := "model_mutex:" ++ toString resource.toNat

/-- What outlives a test. -/
structure Process where
  lockHook : Bool := false
  taskHook : Bool := false
  /-- The lock, notify, channel, broadcast and cell hooks are installed together. -/
  asyncHooks : Bool := false
  globalProbeSender : Option Sink := none
  nextSink : Sink := 0
  nextImplicitThreadId : UInt64 := 0
  /-- Model mutexes and read-write locks, by `NEXT_LOCK_RESOURCE_ID`. -/
  locks : Allocator Handle := { next := 1 }
  /-- Async resources, by `NEXT_ASYNC_LOCK_RESOURCE_ID`. -/
  asyncs : Allocator Handle := { next := 1 }
  /-- Waiters, operations and receivers, by `NEXT_ASYNC_LOCK_WAITER_ID`. -/
  waiters : Allocator ℕ := { next := 1 }
  /-- Observed tasks of `spawn_task`, by `NEXT_NATIVE_DYNAMIC_TASK_ID`. -/
  dynamicTasks : Allocator ℕ := { next := 0x8000000000000000 }
  /-- `created_reported` of each semaphore. -/
  createdReported : Handle → Bool := fun _ => false
  /-- The statics whose initialisers have run. -/
  initialized : ℕ → Bool := fun _ => false

/-- A task as the executor sees it. -/
structure Task where
  /-- Wrapped in an `ObservedTask`. -/
  observed : Bool
  attempt : UInt64 := 0
  finished : Bool := false
  /-- The executor has dropped the future: after it returned, by an abort, or at shutdown. -/
  dropped : Bool := false
deriving DecidableEq, Repr

/-- A poll in progress, with the attempt it reports. -/
structure Poll where
  task : TaskRef
  attempt : UInt64
deriving DecidableEq, Repr

structure State extends Process where
  /-- The active session's events, `none` when there is no session. -/
  session : Option (List Entry) := none
  probeSender : Thread → Option Sink := fun _ => none
  probeThreadId : Thread → Option UInt64 := fun _ => none
  currentTaskId : Thread → Option UInt64 := fun _ => none
  /-- The lock that a live guard holds. -/
  guards : ℕ → Option Handle := fun _ => none
  /-- The thread id that a tracked primitive's call or guard keeps. -/
  trackedIds : ℕ → Option UInt64 := fun _ => none
  tasks : TaskRef → Option Task := fun _ => none
  /-- Length of the harness's `TaskSet`. -/
  registered : ℕ := 0
  polling : Thread → Option Poll := fun _ => none
  lastPolled : Thread → Option TaskRef := fun _ => none
  owner : Acquisition → Option Context := fun _ => none
  /-- The last task polled on the thread when the acquisition began. -/
  acquiredUnder : Acquisition → Option TaskRef := fun _ => none

namespace State

def context (state : State) (thread : Thread) : Context :=
  match state.polling thread with
  | some poll => .task poll.task
  | none => .thread thread

/-- A task's id: its position in the `TaskSet`, or its reserved dynamic id. -/
def taskId (state : State) : TaskRef → Option UInt64
  | .registered index => some (UInt64.ofNat index)
  | .dynamic index => state.dynamicTasks.table index

/-- `emit`: the thread-local sink, then the legacy process-wide one, then the session. -/
def emit (state : State) (thread : Thread) (acquisition : Option Acquisition) (event : ProbeEvent) :
    State :=
  match state.probeSender thread, state.globalProbeSender with
  | none, none =>
      { state with
        session := state.session.map (· ++ [⟨state.context thread, acquisition, event⟩]) }
  | _, _ => state

/-- `current_thread_id`: the thread-local id, else the next implicit one. The counter wraps. -/
def currentThreadId (state : State) (thread : Thread) : UInt64 × State :=
  match state.probeThreadId thread with
  | some id => (id, state)
  | none =>
      (state.nextImplicitThreadId,
        { state with
          nextImplicitThreadId := state.nextImplicitThreadId + 1
          probeThreadId := Function.update state.probeThreadId thread
            (some state.nextImplicitThreadId) })

/-- Emit an event that carries the caller's thread id. -/
def emitAs (state : State) (thread : Thread) (acquisition : Option Acquisition)
    (event : UInt64 → ProbeEvent) : State :=
  (state.currentThreadId thread).2.emit thread acquisition (event (state.currentThreadId thread).1)

/-- Note who began an acquisition, and after which poll. -/
def begin (state : State) (thread : Thread) (acquisition : Acquisition) : State :=
  match state.owner acquisition with
  | some _ => state
  | none =>
      { state with
        owner := Function.update state.owner acquisition (some (state.context thread))
        acquiredUnder := Function.update state.acquiredUnder acquisition (state.lastPolled thread) }

end State

end Laplace.Model.Probe
