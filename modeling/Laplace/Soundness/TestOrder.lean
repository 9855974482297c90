import Laplace.Soundness.OutlivingThreads
import Mathlib.Data.Set.Function

/-! # Captures and the order of tests

Two runs of one body differ only in the ids that the counters hand out, as long as each hook that
the body reaches is installed in both. The hooks are never cleared, so this holds for every history
of the process when the harness installs those hooks itself; a `threads` harness installs none, and
what its model primitives emit depends on the tests before it.

The two runs are related by one renaming of ids, chosen from the tables at their ends: tables only
grow, so the renaming fits every state on the way. Between the steps of the body either run may drift,
where a thread of an earlier test goes on unheard or an initialiser of a static makes a primitive.
-/

namespace Laplace.Soundness

open Laplace.Machine Laplace.Model Laplace.Model.Probe
open Laplace.Model.Runtime (saturatingAdd)

/-- A renaming of model mutexes, async resources, waiters and dynamic tasks. -/
structure Renaming where
  lock : UInt64 → UInt64
  resource : UInt64 → UInt64
  waiter : UInt64 → UInt64
  task : UInt64 → UInt64

namespace Renaming

/-- The names of model mutexes follow their ids; every other name stays. -/
noncomputable def name (relabel : Renaming) : String → String :=
  Function.extend resourceName (resourceName ∘ relabel.lock) id

noncomputable def event (relabel : Renaming) : ProbeEvent → ProbeEvent
  | .threadBlocked id blockedOn => .threadBlocked (relabel.task id) (relabel.name blockedOn)
  | .lockAcquired id resource => .lockAcquired (relabel.task id) (relabel.name resource)
  | .lockReleased id resource => .lockReleased (relabel.task id) (relabel.name resource)
  | .rwLockReadAcquired id resource => .rwLockReadAcquired (relabel.task id) (relabel.name resource)
  | .rwLockReadReleased id resource => .rwLockReadReleased (relabel.task id) (relabel.name resource)
  | .rwLockWriteAcquired id resource => .rwLockWriteAcquired (relabel.task id) (relabel.name resource)
  | .rwLockWriteReleased id resource => .rwLockWriteReleased (relabel.task id) (relabel.name resource)
  | .atomicLoad id resource => .atomicLoad (relabel.task id) (relabel.name resource)
  | .atomicStore id resource => .atomicStore (relabel.task id) (relabel.name resource)
  | .atomicRmw id resource => .atomicRmw (relabel.task id) (relabel.name resource)
  | .semaphoreAcquired id resource => .semaphoreAcquired (relabel.task id) (relabel.name resource)
  | .semaphoreReleased id resource => .semaphoreReleased (relabel.task id) (relabel.name resource)
  | .taskSpawned task parent source => .taskSpawned (relabel.task task) (parent.map relabel.task) source
  | .taskPolled task attempt => .taskPolled (relabel.task task) attempt
  | .futurePending task future attempt => .futurePending (relabel.task task) future attempt
  | .futureReady task future attempt => .futureReady (relabel.task task) future attempt
  | .taskCompleted task => .taskCompleted (relabel.task task)
  | .taskJoinRequested id joined => .taskJoinRequested (relabel.task id) (relabel.task joined)
  | .taskJoinResolved id joined => .taskJoinResolved (relabel.task id) (relabel.task joined)
  | .asyncLockRequested id resource waiter kind =>
      .asyncLockRequested (relabel.task id) (relabel.resource resource) (relabel.waiter waiter) kind
  | .asyncLockAcquired id resource waiter kind =>
      .asyncLockAcquired (relabel.task id) (relabel.resource resource) (relabel.waiter waiter) kind
  | .asyncLockReleased id resource waiter kind =>
      .asyncLockReleased (relabel.task id) (relabel.resource resource) (relabel.waiter waiter) kind
  | .asyncLockWaiterDropped id resource waiter =>
      .asyncLockWaiterDropped (relabel.task id) (relabel.resource resource) (relabel.waiter waiter)
  | .asyncSemaphoreCreated id resource permits =>
      .asyncSemaphoreCreated (relabel.task id) (relabel.resource resource) permits
  | .asyncPermitsAdded id resource n =>
      .asyncPermitsAdded (relabel.task id) (relabel.resource resource) n
  | .asyncNotifyWaitRequested id resource waiter =>
      .asyncNotifyWaitRequested (relabel.task id) (relabel.resource resource) (relabel.waiter waiter)
  | .asyncNotifyWaitResolved id resource waiter =>
      .asyncNotifyWaitResolved (relabel.task id) (relabel.resource resource) (relabel.waiter waiter)
  | .asyncNotifyOne id resource => .asyncNotifyOne (relabel.task id) (relabel.resource resource)
  | .asyncNotifyWaiters id resource => .asyncNotifyWaiters (relabel.task id) (relabel.resource resource)
  | .asyncNotifyWaiterDropped id resource waiter =>
      .asyncNotifyWaiterDropped (relabel.task id) (relabel.resource resource) (relabel.waiter waiter)
  | .asyncChannelCreated id channel kind =>
      .asyncChannelCreated (relabel.task id) (relabel.resource channel) kind
  | .asyncChannelOpRequested id channel op kind =>
      .asyncChannelOpRequested (relabel.task id) (relabel.resource channel) (relabel.waiter op) kind
  | .asyncChannelOpResolved id channel op kind outcome =>
      .asyncChannelOpResolved (relabel.task id) (relabel.resource channel) (relabel.waiter op) kind outcome
  | .asyncChannelOpDropped id channel op =>
      .asyncChannelOpDropped (relabel.task id) (relabel.resource channel) (relabel.waiter op)
  | .asyncChannelEndpointCloned id channel side =>
      .asyncChannelEndpointCloned (relabel.task id) (relabel.resource channel) side
  | .asyncChannelEndpointDropped id channel side =>
      .asyncChannelEndpointDropped (relabel.task id) (relabel.resource channel) side
  | .asyncChannelClosed id channel => .asyncChannelClosed (relabel.task id) (relabel.resource channel)
  | .asyncBroadcastCreated id resource capacity =>
      .asyncBroadcastCreated (relabel.task id) (relabel.resource resource) capacity
  | .asyncBroadcastSubscribed id resource receiver atSeq =>
      .asyncBroadcastSubscribed (relabel.task id) (relabel.resource resource) (relabel.waiter receiver) atSeq
  | .asyncBroadcastOpRequested id resource op receiver kind =>
      .asyncBroadcastOpRequested (relabel.task id) (relabel.resource resource) (relabel.waiter op)
        (receiver.map relabel.waiter) kind
  | .asyncBroadcastOpResolved id resource op receiver kind outcome =>
      .asyncBroadcastOpResolved (relabel.task id) (relabel.resource resource) (relabel.waiter op)
        (receiver.map relabel.waiter) kind outcome
  | .asyncBroadcastOpDropped id resource op =>
      .asyncBroadcastOpDropped (relabel.task id) (relabel.resource resource) (relabel.waiter op)
  | .asyncBroadcastEndpointCloned id resource side receiver =>
      .asyncBroadcastEndpointCloned (relabel.task id) (relabel.resource resource) side
        (receiver.map relabel.waiter)
  | .asyncBroadcastEndpointDropped id resource side receiver =>
      .asyncBroadcastEndpointDropped (relabel.task id) (relabel.resource resource) side
        (receiver.map relabel.waiter)
  | .asyncCellCreated id resource => .asyncCellCreated (relabel.task id) (relabel.resource resource)
  | .asyncCellLoad id resource version =>
      .asyncCellLoad (relabel.task id) (relabel.resource resource) version
  | .asyncCellStore id resource version =>
      .asyncCellStore (relabel.task id) (relabel.resource resource) version
  | other => other

end Renaming

/-- The hook family that a step reaches. -/
def family : Step → Option Family
  | .lock .. | .unlock .. => some .lock
  | .asyncReport .. | .semaphoreReport .. => some .async
  | .register _ | .spawnTask .. | .pollStarted .. | .pollCompleted .. | .joinRequested ..
  | .joinResolved .. => some .task
  | .newLock _ | .newAsync _ | .newWaiter _ | .trackedCall .. | .trackedEmit .. | .dropTask _ => none

/-- The renaming takes the id that a name has in one state to the one it has in the other. Model mutexes matter only
where the body takes one. -/
structure Fits (locking : Prop) (relabel : Renaming) (state state' : State) : Prop where
  locks : locking → ∀ lock id id', state.locks.table lock = some id → state'.locks.table lock = some id' →
    relabel.lock id = id'
  asyncs : ∀ resource id id', state.asyncs.table resource = some id →
    state'.asyncs.table resource = some id' → relabel.resource id = id'
  waiters : ∀ waiter id id', state.waiters.table waiter = some id →
    state'.waiters.table waiter = some id' → relabel.waiter id = id'
  dynamicTasks : ∀ task id id', state.dynamicTasks.table task = some id →
    state'.dynamicTasks.table task = some id' → relabel.task id = id'

theorem Fits.earlier {locking : Prop} {relabel : Renaming} {state state' final final' : State}
    (fits : Fits locking relabel final final') (grown : TablesGrow state final) (grown' : TablesGrow state' final') :
    Fits locking relabel state state' :=
  ⟨fun locks _ _ _ h h' => fits.locks locks _ _ _ (grown.locks _ _ h) (grown'.locks _ _ h'),
    fun _ _ _ h h' => fits.asyncs _ _ _ (grown.asyncs _ _ h) (grown'.asyncs _ _ h'),
    fun _ _ _ h h' => fits.waiters _ _ _ (grown.waiters _ _ h) (grown'.waiters _ _ h'),
    fun _ _ _ h h' => fits.dynamicTasks _ _ _ (grown.dynamicTasks _ _ h) (grown'.dynamicTasks _ _ h')⟩

/-- The checked counter never hands out `0` or `u64::MAX`. -/
theorem handedOut {locks : Allocator Handle} (fresh : locks.Fresh 1) {lock : Handle} {id : UInt64}
    (given : locks.table lock = some id) : ¬ (id < 1 ∨ id = 0xFFFFFFFFFFFFFFFF) := by
  obtain ⟨least, below⟩ := fresh.bounded lock id given
  rintro (small | rfl)
  · exact UInt64.not_lt.mpr least small
  · have last : locks.next ≤ 0xFFFFFFFFFFFFFFFF := by
      rw [UInt64.le_iff_toNat_le]
      change locks.next.toNat ≤ 2 ^ 64 - 1
      have := locks.next.toNat_lt
      omega
    exact UInt64.not_le.mpr below last

/-- Two states of one body, under a renaming. `room` steps of the implicit counter are left before
its ids would meet the dynamic ones. -/
structure Twin (relabel : Renaming) (mode : Mode) (room : ℕ) (state state' : State) : Prop where
  lockHook : mode.installs .lock = true → state.lockHook = true ∧ state'.lockHook = true
  taskHook : mode.installs .task = true → state.taskHook = true ∧ state'.taskHook = true
  asyncHooks : mode.installs .async = true → state.asyncHooks = true ∧ state'.asyncHooks = true
  slot : state.globalProbeSender = none ∧ state'.globalProbeSender = none
  senders : ∀ thread, state.probeSender thread = none ∧ state'.probeSender thread = none
  events : ∃ log log', state.session = some log ∧ state'.session = some log' ∧
    log'.map Entry.event = (log.map Entry.event).map relabel.event
  counter : state'.nextImplicitThreadId = state.nextImplicitThreadId
  room : state.nextImplicitThreadId.toNat + room < 2 ^ 63
  threadIds : ∀ thread, state'.probeThreadId thread = (state.probeThreadId thread).map relabel.task
  currentTasks : ∀ thread, state'.currentTaskId thread = (state.currentTaskId thread).map relabel.task
  trackedIds : ∀ call, state'.trackedIds call = (state.trackedIds call).map relabel.task
  guards : state'.guards = state.guards
  tasks : state'.tasks = state.tasks
  registered : state'.registered = state.registered
  polling : state'.polling = state.polling
  created : ∀ resource, resource.isShared = false →
    state'.createdReported resource = state.createdReported resource
  named : ∀ task value, state.tasks task = some value → value.observed = true ∧
    ∃ id, state.taskId task = some id ∧ state'.taskId task = some (relabel.task id)

section

variable {locking : Prop} {relabel : Renaming} {mode : Mode} {room : ℕ} {state state' next next' : State}
  {thread : Thread}

theorem Twin.less {fewer : ℕ} (twin : Twin relabel mode room state state') (less : fewer ≤ room) :
    Twin relabel mode fewer state state' :=
  { twin with room := by have := twin.room; omega }

/-- The first run drifts. -/
theorem Twin.drift (twin : Twin relabel mode room state state') (drift : Drift state next) :
    Twin relabel mode room next state' := by
  have reports := drift.reports
  have tables := drift.tables.dynamicTasks
  rw [drift.same] at reports tables ⊢
  refine { twin with created := ?_, named := ?_ }
  · exact fun resource own => (twin.created resource own).trans (reports resource own).symm
  · intro task value present
    obtain ⟨wrapped, id, named, named'⟩ := twin.named task value present
    refine ⟨wrapped, id, ?_, named'⟩
    cases task with
    | registered index => exact named
    | dynamic index => exact tables index id named

/-- The second run drifts. -/
theorem Twin.drift' (twin : Twin relabel mode room state state') (drift : Drift state' next') :
    Twin relabel mode room state next' := by
  have reports := drift.reports
  have tables := drift.tables.dynamicTasks
  rw [drift.same] at reports tables ⊢
  refine { twin with created := ?_, named := ?_ }
  · exact fun resource own => (reports resource own).trans (twin.created resource own)
  · intro task value present
    obtain ⟨wrapped, id, named, named'⟩ := twin.named task value present
    refine ⟨wrapped, id, named, ?_⟩
    cases task with
    | registered index => exact named'
    | dynamic index => exact tables index _ named'

theorem emit_open {log : List Entry} {acquisition : Option Acquisition} {event : ProbeEvent}
    (sender : state.probeSender thread = none) (slot : state.globalProbeSender = none)
    (opened : state.session = some log) :
    state.emit thread acquisition event =
      { state with session := some (log ++ [⟨state.context thread, acquisition, event⟩]) } := by
  unfold State.emit
  rw [sender, slot, opened]
  rfl

theorem Calm.resourceId (calm : Calm state next) (resource : Handle) :
    next.resourceId resource = state.resourceId resource := by
  unfold State.resourceId
  rw [calm.asyncs]

theorem Calm.waiterId (calm : Calm state next) (waiter : ℕ) :
    next.waiterId waiter = state.waiterId waiter := by
  unfold State.waiterId
  rw [calm.waiters]

end

end Laplace.Soundness
