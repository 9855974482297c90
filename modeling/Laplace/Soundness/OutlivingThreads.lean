import Laplace.Soundness.TestSequence

/-! # Threads that outlive their test

A thread that an earlier test has left running shares the counters, the hooks and the session with the running test.
What it does there is heard only if it emits with no sink of its own, or takes one of the session's implicit thread
ids. Anything else moves the counters on, and gives ids to primitives in statics; so does the initialiser of a static
that only makes primitives. Between such drifts the running test takes the steps of its own body.
-/

namespace Laplace.Soundness

open Laplace.Machine Laplace.Model Laplace.Model.Probe

/-- What the thread reports under its own id takes an implicit id or is emitted into the session. -/
def audible (state : State) (thread : Thread) : Bool :=
  (state.probeThreadId thread).isNone || (state.probeSender thread).isNone

/-- The id under which the installed observer sees a task. -/
def watchedId (state : State) (task : TaskRef) : Option UInt64 := (state.tasks task).bind (observedId state task)

/-- Whether a step emits into the session or takes an implicit thread id. -/
def intrudes (state : State) : Step → Bool
  | .lock thread .. => state.lockHook && audible state thread
  | .unlock thread _ panicking => (state.lockHook && !panicking) && audible state thread
  | .asyncReport thread _ | .semaphoreReport thread .. => state.asyncHooks && audible state thread
  | .trackedCall thread _ => (state.probeThreadId thread).isNone
  | .trackedEmit thread .. => (state.probeSender thread).isNone
  | .register thread | .spawnTask thread _ => state.taskHook && (state.probeSender thread).isNone
  | .pollStarted thread task => (watchedId state task).isSome && (state.probeSender thread).isNone
  | .pollCompleted thread _ =>
      ((state.polling thread).bind fun poll => watchedId state poll.task).isSome && (state.probeSender thread).isNone
  | .joinRequested thread task | .joinResolved thread task =>
      ((state.currentTaskId thread).isSome && (watchedId state task).isSome) && (state.probeSender thread).isNone
  | .newLock _ | .newAsync _ | .newWaiter _ | .dropTask _ => false

def boundaryIntrudes (state : State) : Boundary → Bool
  | .step taken => intrudes state taken
  | .initializing static taken => !state.initialized static && intrudes state taken
  | .initialized _ => false

/-- No thread of an earlier test is heard in the session. -/
def Undisturbed (running : Running) : Move Boundary → Prop
  | .own _ => True
  | .outliving test taken =>
      ∀ rest ∈ running.outliving[test]?, boundaryIntrudes (rest.within running.state) taken = false

/-- The session is as it was. -/
structure Hushed (state next : State) : Prop where
  session : next.session = state.session
  counter : next.nextImplicitThreadId = state.nextImplicitThreadId

section

variable {state next : State} {thread : Thread}

theorem Hushed.emit (hushed : Hushed state next) (sunk : (next.probeSender thread).isNone = false)
    (acquisition : Option Acquisition) (event : ProbeEvent) : Hushed state (next.emit thread acquisition event) := by
  unfold State.emit
  split
  · next free _ =>
    rw [free] at sunk
    cases sunk
  · exact hushed

theorem Hushed.emitAs (hushed : Hushed state next) (inaudible : audible next thread = false)
    (acquisition : Option Acquisition) (event : UInt64 → ProbeEvent) :
    Hushed state (next.emitAs thread acquisition event) := by
  obtain ⟨named, sunk⟩ := Bool.or_eq_false_iff.mp inaudible
  cases present : next.probeThreadId thread with
  | none =>
    rw [present] at named
    cases named
  | some id =>
    unfold State.emitAs
    rw [currentThreadId_of_some present]
    exact hushed.emit sunk _ _

/-- A thread with an id and a sink keeps both. -/
theorem audible_emitAs {acquisition : Option Acquisition} {event : UInt64 → ProbeEvent}
    (inaudible : audible state thread = false) : audible (state.emitAs thread acquisition event) thread = false := by
  rw [emitAs_eq]
  change ((Function.update state.probeThreadId thread _ thread).isNone || (state.probeSender thread).isNone) = false
  rw [Function.update_self]
  exact (Bool.or_eq_false_iff.mp inaudible).2

/-- Nor is the creation of a semaphore heard. -/
theorem Hushed.reportCreated (hushed : Hushed state next) (inaudible : audible next thread = false) (permits : ℕ)
    (resource : Handle) : Hushed state (next.reportCreated thread permits resource) ∧
      audible (next.reportCreated thread permits resource) thread = false := by
  unfold State.reportCreated
  split
  · exact ⟨hushed, inaudible⟩
  · constructor
    · refine Hushed.emitAs ?_ ?_ _ _
      · exact ⟨hushed.session, hushed.counter⟩
      · exact inaudible
    · refine audible_emitAs ?_
      exact inaudible

end

/-! ## Tables along a run -/

/-- Every name keeps its id. -/
structure TablesGrow (state next : State) : Prop where
  locks : ∀ lock id, state.locks.table lock = some id → next.locks.table lock = some id
  asyncs : ∀ resource id, state.asyncs.table resource = some id → next.asyncs.table resource = some id
  waiters : ∀ waiter id, state.waiters.table waiter = some id → next.waiters.table waiter = some id
  dynamicTasks : ∀ task id, state.dynamicTasks.table task = some id →
    next.dynamicTasks.table task = some id

theorem TablesGrow.refl (state : State) : TablesGrow state state :=
  ⟨fun _ _ h => h, fun _ _ h => h, fun _ _ h => h, fun _ _ h => h⟩

theorem TablesGrow.trans {first second third : State} (one : TablesGrow first second)
    (two : TablesGrow second third) : TablesGrow first third :=
  ⟨fun _ _ h => two.locks _ _ (one.locks _ _ h), fun _ _ h => two.asyncs _ _ (one.asyncs _ _ h),
    fun _ _ h => two.waiters _ _ (one.waiters _ _ h),
    fun _ _ h => two.dynamicTasks _ _ (one.dynamicTasks _ _ h)⟩

theorem Calm.tablesGrow {state next : State} (calm : Calm state next) : TablesGrow state next := by
  refine ⟨?_, ?_, ?_, ?_⟩
  · rw [calm.locks]; exact fun _ _ h => h
  · rw [calm.asyncs]; exact fun _ _ h => h
  · rw [calm.waiters]; exact fun _ _ h => h
  · rw [calm.dynamicTasks]; exact fun _ _ h => h

theorem step_tablesGrow {state next : State} {taken : Step} (stepped : step state taken = some next) :
    TablesGrow state next := by
  cases step_frame stepped with
  | calm calm => exact calm.tablesGrow
  | locks lock locks ensured same =>
    rw [same]
    exact { TablesGrow.refl state with locks := fun _ _ h => Allocator.ensure_table ensured h }
  | asyncs resource asyncs ensured same =>
    rw [same]
    exact { TablesGrow.refl state with asyncs := fun _ _ h => Allocator.ensure_table ensured h }
  | waiters waiter waiters ensured same =>
    rw [same]
    exact { TablesGrow.refl state with waiters := fun _ _ h => Allocator.ensure_table ensured h }
  | dynamicTasks task dynamicTasks ensured calm =>
    have given : TablesGrow state { state with dynamicTasks } :=
      { TablesGrow.refl state with dynamicTasks := fun _ _ h => Allocator.ensure_table ensured h }
    exact given.trans calm.tablesGrow

/-! ## Drifts -/

/-- The counters move on, primitives in statics may be given ids, and nothing is heard of it. -/
structure Drift (state next : State) : Prop where
  same : next = { state with
    nextSink := next.nextSink, locks := next.locks, asyncs := next.asyncs, waiters := next.waiters,
    dynamicTasks := next.dynamicTasks, createdReported := next.createdReported, initialized := next.initialized }
  tables : TablesGrow state next
  reports : ∀ resource, resource.isShared = false →
    next.createdReported resource = state.createdReported resource
  allocations : Allocations state.toProcess → Allocations next.toProcess

theorem Drift.refl (state : State) : Drift state state := ⟨rfl, .refl state, fun _ _ => rfl, id⟩

theorem Drift.trans {first second third : State} (one : Drift first second) (two : Drift second third) :
    Drift first third where
  same := by
    refine two.same.trans ?_
    conv_lhs => rw [one.same]
  tables := one.tables.trans two.tables
  reports := fun resource own => (two.reports resource own).trans (one.reports resource own)
  allocations := fun holds => two.allocations (one.allocations holds)

/-- A body's steps, with drifts between them. -/
def Drifting : State → List Step → State → Prop
  | state, [], final => Drift state final
  | state, taken :: rest, final =>
      ∃ before after, Drift state before ∧ step before taken = some after ∧ Drifting after rest final

theorem Drift.then {state next final : State} {tape : List Step} (drift : Drift state next)
    (drifting : Drifting next tape final) : Drifting state tape final := by
  cases tape with
  | nil => exact drift.trans drifting
  | cons taken rest =>
    obtain ⟨before, after, drift', stepped, rested⟩ := drifting
    exact ⟨before, after, drift.trans drift', stepped, rested⟩

theorem Drifting.tablesGrow {state final : State} {tape : List Step} (drifting : Drifting state tape final) :
    TablesGrow state final := by
  induction tape generalizing state with
  | nil => exact drifting.tables
  | cons taken rest ih =>
    obtain ⟨before, after, drift, stepped, rested⟩ := drifting
    exact drift.tables.trans ((step_tablesGrow stepped).trans (ih rested))

end Laplace.Soundness
