import Laplace.Model.Harness

/-! # What the boundary operations change

`emit` touches the session alone, `currentThreadId` the caller's id and the implicit counter, and
`begin` the record of one acquisition. Each is restated as a record update, so that every other
field of the result is the old one by computation.
-/

namespace Laplace.Model

/-- The `thread_id` field, where the event has one. -/
def ProbeEvent.threadId : ProbeEvent → Option UInt64
  | .threadBlocked id _ | .lockAcquired id _ | .lockReleased id _
  | .rwLockReadAcquired id _ | .rwLockReadReleased id _
  | .rwLockWriteAcquired id _ | .rwLockWriteReleased id _
  | .atomicLoad id _ | .atomicStore id _ | .atomicRmw id _
  | .semaphoreAcquired id _ | .semaphoreReleased id _
  | .taskJoinRequested id _ | .taskJoinResolved id _
  | .asyncLockRequested id .. | .asyncLockAcquired id .. | .asyncLockReleased id ..
  | .asyncLockWaiterDropped id .. | .asyncSemaphoreCreated id .. | .asyncPermitsAdded id ..
  | .asyncNotifyWaitRequested id .. | .asyncNotifyWaitResolved id .. | .asyncNotifyOne id _
  | .asyncNotifyWaiters id _ | .asyncNotifyWaiterDropped id ..
  | .asyncChannelCreated id .. | .asyncChannelOpRequested id .. | .asyncChannelOpResolved id ..
  | .asyncChannelOpDropped id .. | .asyncChannelEndpointCloned id .. | .asyncChannelEndpointDropped id ..
  | .asyncChannelClosed id _ | .asyncBroadcastCreated id .. | .asyncBroadcastSubscribed id ..
  | .asyncBroadcastOpRequested id .. | .asyncBroadcastOpResolved id .. | .asyncBroadcastOpDropped id ..
  | .asyncBroadcastEndpointCloned id .. | .asyncBroadcastEndpointDropped id ..
  | .asyncCellCreated id _ | .asyncCellLoad id .. | .asyncCellStore id .. => some id
  | _ => none

end Laplace.Model

namespace Laplace.Soundness

open Laplace.Machine Laplace.Model Laplace.Model.Probe

variable {state next : State} {thread : Thread}

/-- The events captured so far, with their contexts. -/
def captured (state : State) : List Entry := state.session.getD []

theorem emit_eq (state : State) (thread : Thread) (acquisition : Option Acquisition)
    (event : ProbeEvent) :
    state.emit thread acquisition event =
      { state with session := (state.emit thread acquisition event).session } := by
  unfold State.emit
  split <;> rfl

/-- What is captured after an emission was captured before it, or is the new event. -/
theorem mem_captured_emit {acquisition : Option Acquisition} {event : ProbeEvent} {entry : Entry}
    (member : entry ∈ captured (state.emit thread acquisition event)) :
    entry ∈ captured state ∨ entry = ⟨state.context thread, acquisition, event⟩ := by
  unfold State.emit at member
  split at member
  · unfold captured at member
    cases opened : state.session with
    | none =>
      rw [opened] at member
      cases member
    | some log =>
      rw [opened] at member
      rcases List.mem_append.mp member with old | new
      · exact Or.inl (by rw [captured, opened]; exact old)
      · exact Or.inr (List.mem_singleton.mp new)
  · exact Or.inl member

/-- Whether the thread had an id or takes the next implicit one, afterwards it has the id it read. -/
theorem currentThreadId_eq (state : State) (thread : Thread) :
    (state.currentThreadId thread).2 =
      { state with
        nextImplicitThreadId := (state.currentThreadId thread).2.nextImplicitThreadId
        probeThreadId := Function.update state.probeThreadId thread
          (some (state.currentThreadId thread).1) } := by
  unfold State.currentThreadId
  split
  · next id present =>
    simp only [← present, Function.update_eq_self]
  · rfl

theorem currentThreadId_of_some {id : UInt64} (present : state.probeThreadId thread = some id) :
    state.currentThreadId thread = (id, state) := by
  unfold State.currentThreadId
  rw [present]

theorem currentThreadId_of_none (absent : state.probeThreadId thread = none) :
    (state.currentThreadId thread).1 = state.nextImplicitThreadId ∧
      (state.currentThreadId thread).2.nextImplicitThreadId = state.nextImplicitThreadId + 1 := by
  unfold State.currentThreadId
  rw [absent]
  exact ⟨rfl, rfl⟩

/-- An event under the thread's own id: the session, and the id if the thread had none. -/
theorem emitAs_eq (state : State) (thread : Thread) (acquisition : Option Acquisition)
    (event : UInt64 → ProbeEvent) :
    state.emitAs thread acquisition event =
      { state with
        nextImplicitThreadId := (state.currentThreadId thread).2.nextImplicitThreadId
        probeThreadId := Function.update state.probeThreadId thread
          (some (state.currentThreadId thread).1)
        session := (state.emitAs thread acquisition event).session } := by
  have read := currentThreadId_eq state thread
  refine (emit_eq (state.currentThreadId thread).2 thread acquisition _).trans ?_
  change _ = { state with
    nextImplicitThreadId := (state.currentThreadId thread).2.nextImplicitThreadId
    probeThreadId := Function.update state.probeThreadId thread (some (state.currentThreadId thread).1)
    session := ((state.currentThreadId thread).2.emit thread acquisition
      (event (state.currentThreadId thread).1)).session }
  generalize ((state.currentThreadId thread).2.emit thread acquisition
      (event (state.currentThreadId thread).1)).session = session
  rw [read]

theorem begin_eq (state : State) (thread : Thread) (acquisition : Acquisition) :
    state.begin thread acquisition =
      { state with
        owner := (state.begin thread acquisition).owner
        acquiredUnder := (state.begin thread acquisition).acquiredUnder } := by
  unfold State.begin
  split <;> rfl

theorem begin_of_some {acquisition : Acquisition} {context : Context}
    (begun : state.owner acquisition = some context) : state.begin thread acquisition = state := by
  unfold State.begin
  rw [begun]

theorem begin_of_none {acquisition : Acquisition} (fresh : state.owner acquisition = none) :
    state.begin thread acquisition =
      { state with
        owner := Function.update state.owner acquisition (some (state.context thread))
        acquiredUnder := Function.update state.acquiredUnder acquisition (state.lastPolled thread) } := by
  unfold State.begin
  rw [fresh]

/-- An acquisition keeps its owner. -/
theorem begin_owner {acquisition other : Acquisition} {context : Context}
    (owned : state.owner other = some context) :
    (state.begin thread acquisition).owner other = some context := by
  cases begun : state.owner acquisition with
  | some _ =>
    rw [begin_of_some begun]
    exact owned
  | none =>
    rw [begin_of_none begun]
    have different : other ≠ acquisition := by
      rintro rfl
      rw [begun] at owned
      cases owned
    exact (Function.update_of_ne different _ _).trans owned

private theorem reports_trans {first second third : State}
    (one : second = { first with session := second.session, currentTaskId := second.currentTaskId })
    (two : third = { second with session := third.session, currentTaskId := third.currentTaskId }) :
    third = { first with session := third.session, currentTaskId := third.currentTaskId } := by
  refine two.trans ?_
  rw [one]

private theorem emit_reports (state : State) (thread : Thread) (event : ProbeEvent) :
    state.emit thread none event =
      { state with
        session := (state.emit thread none event).session
        currentTaskId := (state.emit thread none event).currentTaskId } := by
  unfold State.emit
  split <;> rfl

/-- The callbacks at the end of a poll touch the session and the current task. -/
theorem pollEndedHooks_eq (state : State) (thread : Thread) (id attempt : UInt64)
    (outcome : TaskPollOutcome) :
    state.pollEndedHooks thread id attempt outcome =
      { state with
        session := (state.pollEndedHooks thread id attempt outcome).session
        currentTaskId := (state.pollEndedHooks thread id attempt outcome).currentTaskId } := by
  cases outcome with
  | pending => exact reports_trans (emit_reports state thread (.futurePending id none attempt)) rfl
  | ready =>
    exact reports_trans (reports_trans (reports_trans
      (emit_reports state thread (.futureReady id none attempt)) rfl) rfl) (emit_reports _ _ _)
  | panicked => exact reports_trans (reports_trans rfl rfl) (emit_reports _ _ _)

/-- Every event of an async hook carries the thread id it was made under. -/
theorem asyncReport_threadId (report : AsyncReport UInt64 UInt64) (id : UInt64) :
    (report.event id).threadId = some id := by
  cases report <;> rfl

theorem tracked_threadId (kind : TrackedKind) (id : UInt64) (resource : String) :
    (kind.event id resource).threadId = some id := by
  cases kind <;> rfl

/-- What a step leaves alone when it gives no id to a name. -/
structure Calm (state next : State) : Prop where
  lockHook : next.lockHook = state.lockHook
  taskHook : next.taskHook = state.taskHook
  asyncHooks : next.asyncHooks = state.asyncHooks
  globalProbeSender : next.globalProbeSender = state.globalProbeSender
  probeSender : next.probeSender = state.probeSender
  locks : next.locks = state.locks
  asyncs : next.asyncs = state.asyncs
  waiters : next.waiters = state.waiters
  dynamicTasks : next.dynamicTasks = state.dynamicTasks

theorem Calm.refl (state : State) : Calm state state := ⟨rfl, rfl, rfl, rfl, rfl, rfl, rfl, rfl, rfl⟩

theorem Calm.trans {middle : State} (first : Calm state middle) (second : Calm middle next) :
    Calm state next where
  lockHook := second.lockHook.trans first.lockHook
  taskHook := second.taskHook.trans first.taskHook
  asyncHooks := second.asyncHooks.trans first.asyncHooks
  globalProbeSender := second.globalProbeSender.trans first.globalProbeSender
  probeSender := second.probeSender.trans first.probeSender
  locks := second.locks.trans first.locks
  asyncs := second.asyncs.trans first.asyncs
  waiters := second.waiters.trans first.waiters
  dynamicTasks := second.dynamicTasks.trans first.dynamicTasks

theorem calm_emit (acquisition : Option Acquisition) (event : ProbeEvent) :
    Calm state (state.emit thread acquisition event) := by
  rw [emit_eq]
  exact ⟨rfl, rfl, rfl, rfl, rfl, rfl, rfl, rfl, rfl⟩

theorem calm_currentThreadId : Calm state (state.currentThreadId thread).2 := by
  rw [currentThreadId_eq]
  exact ⟨rfl, rfl, rfl, rfl, rfl, rfl, rfl, rfl, rfl⟩

theorem calm_emitAs (acquisition : Option Acquisition) (event : UInt64 → ProbeEvent) :
    Calm state (state.emitAs thread acquisition event) :=
  calm_currentThreadId.trans (calm_emit acquisition _)

theorem calm_begin (acquisition : Acquisition) : Calm state (state.begin thread acquisition) := by
  rw [begin_eq]
  exact ⟨rfl, rfl, rfl, rfl, rfl, rfl, rfl, rfl, rfl⟩

theorem calm_beginReport (report : AsyncReport Handle ℕ) : Calm state (state.beginReport thread report) := by
  unfold State.beginReport
  split
  · exact calm_begin _
  · exact Calm.refl state

theorem calm_reportCreated (permits : ℕ) (resource : Handle) :
    Calm state (state.reportCreated thread permits resource) := by
  unfold State.reportCreated
  split
  · exact Calm.refl state
  · have marked : Calm state
        { state with createdReported := Function.update state.createdReported resource true } :=
      ⟨rfl, rfl, rfl, rfl, rfl, rfl, rfl, rfl, rfl⟩
    exact marked.trans (calm_emitAs _ _)

theorem calm_pollEndedHooks (id attempt : UInt64) (outcome : TaskPollOutcome) :
    Calm state (state.pollEndedHooks thread id attempt outcome) := by
  rw [pollEndedHooks_eq]
  exact ⟨rfl, rfl, rfl, rfl, rfl, rfl, rfl, rfl, rfl⟩

theorem calm_join {task : TaskRef} {event : UInt64 → UInt64 → ProbeEvent}
    (joined : join state thread task event = some next) : Calm state next := by
  unfold join at joined
  split at joined
  · split at joined
    · obtain rfl := Option.some.inj joined
      unfold State.joinHook
      split
      · exact calm_emit none _
      · exact Calm.refl state
    · obtain rfl := Option.some.inj joined
      exact Calm.refl state
  · cases joined

/-- A step gives an id to at most one name, from one of the four counters, and changes no hook and
no sink. -/
inductive Frame (state next : State) : Prop where
  | calm (calm : Calm state next)
  | locks (lock : Handle) (locks : Allocator Handle) (ensured : state.locks.ensure lock = some locks)
      (same : next = { state with locks })
  | asyncs (resource : Handle) (asyncs : Allocator Handle)
      (ensured : state.asyncs.ensure resource = some asyncs) (same : next = { state with asyncs })
  | waiters (waiter : ℕ) (waiters : Allocator ℕ) (ensured : state.waiters.ensure waiter = some waiters)
      (same : next = { state with waiters })
  | dynamicTasks (task : ℕ) (dynamicTasks : Allocator ℕ)
      (ensured : state.dynamicTasks.ensure task = some dynamicTasks)
      (calm : Calm { state with dynamicTasks } next)

theorem step_frame {taken : Step} (stepped : step state taken = some next) : Frame state next := by
  cases taken with
  | newLock lock =>
    obtain ⟨locks, ensured, rfl⟩ := Option.map_eq_some_iff.mp stepped
    exact .locks lock locks ensured rfl
  | newAsync resource =>
    obtain ⟨asyncs, ensured, rfl⟩ := Option.map_eq_some_iff.mp stepped
    exact .asyncs resource asyncs ensured rfl
  | newWaiter waiter =>
    obtain ⟨waiters, ensured, rfl⟩ := Option.map_eq_some_iff.mp stepped
    exact .waiters waiter waiters ensured rfl
  | lock thread lock guard =>
    simp only [step] at stepped
    split at stepped
    · obtain rfl := Option.some.inj stepped
      have held : Calm state { state.begin thread (.guard guard) with
          guards := Function.update state.guards guard (some lock) } :=
        (calm_begin (.guard guard)).trans ⟨rfl, rfl, rfl, rfl, rfl, rfl, rfl, rfl, rfl⟩
      split
      · exact .calm (held.trans (calm_emitAs _ _))
      · exact .calm held
    · cases stepped
  | unlock thread guard panicking =>
    simp only [step] at stepped
    split at stepped
    · split at stepped
      · obtain rfl := Option.some.inj stepped
        have freed : Calm state { state with guards := Function.update state.guards guard none } :=
          ⟨rfl, rfl, rfl, rfl, rfl, rfl, rfl, rfl, rfl⟩
        split
        · exact .calm (freed.trans (calm_emitAs _ _))
        · exact .calm freed
      · cases stepped
    · cases stepped
  | asyncReport thread report =>
    simp only [step] at stepped
    split at stepped
    · obtain rfl := Option.some.inj stepped
      split
      · exact .calm ((calm_beginReport report).trans (calm_emitAs _ _))
      · exact .calm (calm_beginReport report)
    · cases stepped
  | semaphoreReport thread permits report =>
    simp only [step] at stepped
    split at stepped
    · obtain rfl := Option.some.inj stepped
      split
      · exact .calm (((calm_beginReport report).trans (calm_reportCreated permits _)).trans (calm_emitAs _ _))
      · exact .calm (calm_beginReport report)
    · cases stepped
  | trackedCall thread call =>
    simp only [step] at stepped
    split at stepped
    · obtain rfl := Option.some.inj stepped
      exact .calm (((calm_begin (.tracked call)).trans calm_currentThreadId).trans
        ⟨rfl, rfl, rfl, rfl, rfl, rfl, rfl, rfl, rfl⟩)
    · cases stepped
  | trackedEmit thread call kind resource =>
    obtain ⟨id, -, rfl⟩ := Option.map_eq_some_iff.mp stepped
    exact .calm (calm_emit _ _)
  | register thread =>
    simp only [step] at stepped
    split at stepped
    · obtain rfl := Option.some.inj stepped
      have pushed : Calm state { state.setTask (.registered state.registered) ⟨true, 0, false, false⟩ with
          registered := state.registered + 1 } := ⟨rfl, rfl, rfl, rfl, rfl, rfl, rfl, rfl, rfl⟩
      split
      · exact .calm (pushed.trans (calm_emit _ _))
      · exact .calm pushed
    · cases stepped
  | spawnTask thread task =>
    simp only [step] at stepped
    split at stepped
    · cases stepped
    · split at stepped
      · obtain ⟨dynamicTasks, ensured, given⟩ := Option.bind_eq_some_iff.mp stepped
        obtain ⟨id, -, rfl⟩ := Option.map_eq_some_iff.mp given
        refine .dynamicTasks task dynamicTasks ensured (Calm.trans ?_ (calm_emit _ _))
        exact ⟨rfl, rfl, rfl, rfl, rfl, rfl, rfl, rfl, rfl⟩
      · obtain rfl := Option.some.inj stepped
        exact .calm ⟨rfl, rfl, rfl, rfl, rfl, rfl, rfl, rfl, rfl⟩
  | pollStarted thread task =>
    simp only [step] at stepped
    split at stepped
    · split at stepped
      · cases stepped
      · split at stepped
        · obtain rfl := Option.some.inj stepped
          refine .calm (Calm.trans ?_ (calm_emit _ _))
          exact ⟨rfl, rfl, rfl, rfl, rfl, rfl, rfl, rfl, rfl⟩
        · obtain rfl := Option.some.inj stepped
          exact .calm ⟨rfl, rfl, rfl, rfl, rfl, rfl, rfl, rfl, rfl⟩
    · cases stepped
  | pollCompleted thread outcome =>
    simp only [step] at stepped
    split at stepped
    · split at stepped
      · obtain rfl := Option.some.inj stepped
        split
        · exact .calm ((calm_pollEndedHooks _ _ _).trans ⟨rfl, rfl, rfl, rfl, rfl, rfl, rfl, rfl, rfl⟩)
        · exact .calm ⟨rfl, rfl, rfl, rfl, rfl, rfl, rfl, rfl, rfl⟩
      · cases stepped
    · cases stepped
  | dropTask task =>
    obtain ⟨value, -, rfl⟩ := Option.map_eq_some_iff.mp stepped
    exact .calm ⟨rfl, rfl, rfl, rfl, rfl, rfl, rfl, rfl, rfl⟩
  | joinRequested thread task => exact .calm (calm_join stepped)
  | joinResolved thread task => exact .calm (calm_join stepped)

/-- The counters of a process have handed out each id once. -/
structure Allocations (process : Process) : Prop where
  locks : process.locks.Fresh 1
  asyncs : process.asyncs.Fresh 1
  waiters : process.waiters.Fresh 1
  dynamicTasks : process.dynamicTasks.Fresh 0x8000000000000000

theorem Allocations.congr {process other : Process} (holds : Allocations process)
    (locks : other.locks = process.locks) (asyncs : other.asyncs = process.asyncs)
    (waiters : other.waiters = process.waiters) (dynamicTasks : other.dynamicTasks = process.dynamicTasks) :
    Allocations other :=
  ⟨locks ▸ holds.locks, asyncs ▸ holds.asyncs, waiters ▸ holds.waiters, dynamicTasks ▸ holds.dynamicTasks⟩

theorem allocations_step {taken : Step} (stepped : step state taken = some next)
    (holds : Allocations state.toProcess) : Allocations next.toProcess := by
  have ofCalm : ∀ {state}, Calm state next → Allocations state.toProcess → Allocations next.toProcess :=
    fun calm holds => holds.congr calm.locks calm.asyncs calm.waiters calm.dynamicTasks
  cases step_frame stepped with
  | calm calm => exact ofCalm calm holds
  | locks lock locks ensured same =>
    rw [same]
    exact ⟨holds.locks.ensure ensured, holds.asyncs, holds.waiters, holds.dynamicTasks⟩
  | asyncs resource asyncs ensured same =>
    rw [same]
    exact ⟨holds.locks, holds.asyncs.ensure ensured, holds.waiters, holds.dynamicTasks⟩
  | waiters waiter waiters ensured same =>
    rw [same]
    exact ⟨holds.locks, holds.asyncs, holds.waiters.ensure ensured, holds.dynamicTasks⟩
  | dynamicTasks task dynamicTasks ensured calm =>
    exact ofCalm calm ⟨holds.locks, holds.asyncs, holds.waiters, holds.dynamicTasks.ensure ensured⟩

/-- A boundary is a step, or changes nothing but which statics are initialized. -/
theorem boundary_cases {taken : Boundary} (stepped : boundary state taken = some next) :
    (∃ inner, step state inner = some next) ∨ next = { state with initialized := next.initialized } := by
  cases taken with
  | step inner => exact .inl ⟨inner, stepped⟩
  | initializing static inner =>
    simp only [boundary] at stepped
    split at stepped
    · obtain rfl := Option.some.inj stepped
      exact .inr rfl
    · exact .inl ⟨inner, stepped⟩
  | initialized static =>
    obtain rfl := Option.some.inj stepped
    exact .inr rfl

theorem allocations_boundary {taken : Boundary} (stepped : boundary state taken = some next)
    (holds : Allocations state.toProcess) : Allocations next.toProcess := by
  rcases boundary_cases stepped with ⟨inner, stepped⟩ | same
  · exact allocations_step stepped holds
  · rw [same]
    exact holds.congr rfl rfl rfl rfl

/-- What a boundary does to the counters. -/
structure ServesNames (state next : State) : Prop where
  locks : state.locks.Serves next.locks
  asyncs : state.asyncs.Serves next.asyncs
  waiters : state.waiters.Serves next.waiters
  dynamicTasks : state.dynamicTasks.Serves next.dynamicTasks

theorem ServesNames.of_eq (locks : next.locks = state.locks) (asyncs : next.asyncs = state.asyncs)
    (waiters : next.waiters = state.waiters) (dynamicTasks : next.dynamicTasks = state.dynamicTasks) :
    ServesNames state next := ⟨.inl locks, .inl asyncs, .inl waiters, .inl dynamicTasks⟩

theorem boundary_serves {taken : Boundary} (stepped : boundary state taken = some next) :
    ServesNames state next := by
  rcases boundary_cases stepped with ⟨inner, stepped⟩ | same
  · cases step_frame stepped with
    | calm calm => exact .of_eq calm.locks calm.asyncs calm.waiters calm.dynamicTasks
    | locks lock locks ensured same =>
      rw [same]
      exact { ServesNames.of_eq rfl rfl rfl rfl with locks := .inr ⟨lock, ensured⟩ }
    | asyncs resource asyncs ensured same =>
      rw [same]
      exact { ServesNames.of_eq rfl rfl rfl rfl with asyncs := .inr ⟨resource, ensured⟩ }
    | waiters waiter waiters ensured same =>
      rw [same]
      exact { ServesNames.of_eq rfl rfl rfl rfl with waiters := .inr ⟨waiter, ensured⟩ }
    | dynamicTasks task dynamicTasks ensured calm =>
      exact ⟨.inl calm.locks, .inl calm.asyncs, .inl calm.waiters,
        .inr ⟨task, by rw [calm.dynamicTasks]; exact ensured⟩⟩
  · exact .of_eq (congrArg (·.locks) same) (congrArg (·.asyncs) same) (congrArg (·.waiters) same)
      (congrArg (·.dynamicTasks) same)

/-- Threads with other names leave the counters of a test in order. -/
theorem allocations_within {rest : State} {taken : Boundary}
    (stepped : boundary (rest.within state) taken = some next) (holds : Allocations state.toProcess) :
    Allocations (state.within next).toProcess :=
  have serves := boundary_serves stepped
  ⟨serves.locks.fresh holds.locks, serves.asyncs.fresh holds.asyncs, serves.waiters.fresh holds.waiters,
    serves.dynamicTasks.fresh holds.dynamicTasks⟩

end Laplace.Soundness
