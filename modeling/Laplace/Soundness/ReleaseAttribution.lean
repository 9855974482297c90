import Laplace.Soundness.Boundaries

/-! # Attribution of releases

An event is attributed through `PROBE_THREAD_ID`, which the start of a poll overwrites and nothing
restores. While a task is polled the thread carries the task's id; between polls it carries the id
of the last task polled. A guard or waiter that is dropped there, by an abort or at shutdown, is
therefore attributed to that task: rightly exactly when the last poll was the same as at the
acquisition. The invariant names, for each acquisition, the one id that all of its events carry, and
where that id can still be read.
-/

namespace Laplace.Soundness

open Laplace.Machine Laplace.Model Laplace.Model.Probe
open Laplace.Model.Runtime (saturatingAdd)

/-- `LockAcquired`, `AsyncLockAcquired`, `AsyncLockRequested`. -/
def opens : ProbeEvent → Bool
  | .lockAcquired .. | .asyncLockAcquired .. | .asyncLockRequested .. => true
  | _ => false

/-- `LockReleased`, `AsyncLockReleased`, `AsyncLockWaiterDropped`. -/
def closes : ProbeEvent → Bool
  | .lockReleased .. | .asyncLockReleased .. | .asyncLockWaiterDropped .. => true
  | _ => false

/-- Every release carries the thread id of its acquisition. -/
def ReleasesAttributed (log : List Entry) : Prop :=
  ∀ opening ∈ log, ∀ closing ∈ log, ∀ acquisition,
    opening.acquisition = some acquisition → closing.acquisition = some acquisition →
    opens opening.event → closes closing.event → closing.event.threadId = opening.event.threadId

/-- The acquisition a step works on, with the thread that takes it. Tracked guards keep their id and
are not among them. -/
def worksOn : Step → Option (Thread × Acquisition)
  | .lock thread _ guard | .unlock thread guard _ => some (thread, .guard guard)
  | .asyncReport thread report | .semaphoreReport thread _ report =>
      report.acquisition.map fun acquisition => (thread, acquisition)
  | _ => none

/-- The acquisition stays where it was made: it is worked on by its own context, or, outside any
poll, by the executor that drops its task's future. -/
def NotMoved (state : State) (step : Step) : Prop :=
  ∀ work ∈ worksOn step, ∀ owner ∈ state.owner work.2,
    state.context work.1 = owner ∨ (state.polling work.1 = none ∧ owner.isTask = true)

/-- Outside any poll an acquisition is worked on only while the last task polled on the thread is
the one that was last polled when it began. -/
def InTurn (state : State) (step : Step) : Prop :=
  ∀ work ∈ worksOn step, (state.owner work.2).isSome → state.polling work.1 = none →
    state.lastPolled work.1 = state.acquiredUnder work.2

instance (state : State) (step : Step) : Decidable (NotMoved state step) :=
  inferInstanceAs (Decidable (∀ work ∈ worksOn step, ∀ owner ∈ state.owner work.2,
    state.context work.1 = owner ∨ (state.polling work.1 = none ∧ owner.isTask = true)))

instance (state : State) (step : Step) : Decidable (InTurn state step) :=
  inferInstanceAs (Decidable (∀ work ∈ worksOn step, (state.owner work.2).isSome →
    state.polling work.1 = none → state.lastPolled work.1 = state.acquiredUnder work.2))

/-- The id under which an acquisition began is that of the task last polled then, else the id of its
thread, as long as no poll has started there. -/
structure Readable (state : State) (acquisition : Acquisition) (id : UInt64) : Prop where
  begun : ∃ owner, state.owner acquisition = some owner
  task : ∀ task, state.acquiredUnder acquisition = some task → state.taskId task = some id
  thread : state.acquiredUnder acquisition = none → ∀ thread,
    state.owner acquisition = some (.thread thread) → state.lastPolled thread = none →
      state.probeThreadId thread = some id

/-- Where the id of an acquisition can be read. -/
def Source (state : State) (acquisition : Acquisition) (id : UInt64) : Prop :=
  match acquisition with
  | .tracked call => state.trackedIds call = some id
  | .guard _ | .waiter _ => Readable state acquisition id

/-- The state of a run under the observer, with the id of each acquisition. -/
structure Attributed (state : State) (ids : Acquisition → UInt64) : Prop where
  hooked : state.taskHook = true
  observed : ∀ task value, state.tasks task = some value →
    value.observed = true ∧ ∃ id, state.taskId task = some id
  polled : ∀ thread poll, state.polling thread = some poll → state.lastPolled thread = some poll.task
  last : ∀ thread task, state.lastPolled thread = some task →
    ∃ id, state.taskId task = some id ∧ state.probeThreadId thread = some id
  begun : ∀ acquisition task, state.owner acquisition = some (.task task) →
    state.acquiredUnder acquisition = some task
  guarded : ∀ guard lock, state.guards guard = some lock →
    ∃ owner, state.owner (.guard guard) = some owner
  carried : ∀ entry ∈ captured state, ∀ acquisition, entry.acquisition = some acquisition →
    entry.event.threadId = some (ids acquisition) ∧ Source state acquisition (ids acquisition)

def Attributable (state : State) : Prop := ∃ ids, Attributed state ids

/-- What an operation may change without touching a source. -/
structure KeepsSources (state next : State) : Prop where
  trackedIds : ∀ call id, state.trackedIds call = some id → next.trackedIds call = some id
  owner : ∀ acquisition owner, state.owner acquisition = some owner →
    next.owner acquisition = some owner ∧ next.acquiredUnder acquisition = state.acquiredUnder acquisition
  taskId : ∀ task id, state.taskId task = some id → next.taskId task = some id
  threadId : ∀ thread, next.lastPolled thread = none → state.lastPolled thread = none ∧
    ∀ id, state.probeThreadId thread = some id → next.probeThreadId thread = some id

variable {state next : State} {thread : Thread} {ids : Acquisition → UInt64}

theorem KeepsSources.refl (state : State) : KeepsSources state state :=
  ⟨fun _ _ kept => kept, fun _ _ begun => ⟨begun, rfl⟩, fun _ _ known => known,
    fun _ quiet => ⟨quiet, fun _ carries => carries⟩⟩

theorem KeepsSources.source (keeps : KeepsSources state next) {acquisition : Acquisition} {id : UInt64}
    (source : Source state acquisition id) : Source next acquisition id := by
  have readable : Readable state acquisition id → Readable next acquisition id := by
    rintro ⟨⟨owner, begun⟩, task, thread⟩
    obtain ⟨begun', under⟩ := keeps.owner acquisition owner begun
    refine ⟨⟨owner, begun'⟩, ?_, ?_⟩
    · intro last polled
      rw [under] at polled
      exact keeps.taskId last id (task last polled)
    · intro none other owned quiet
      rw [under] at none
      rw [begun'] at owned
      obtain ⟨quiet', kept⟩ := keeps.threadId other quiet
      exact kept id (thread none other (begun.trans owned) quiet')
  cases acquisition with
  | tracked call => exact keeps.trackedIds call id source
  | guard index => exact readable source
  | waiter index => exact readable source

/-- An operation that emits nothing keeps the ids of all acquisitions. -/
theorem Attributed.carried_of_keeps (holds : Attributed state ids) (keeps : KeepsSources state next)
    (silent : captured next = captured state) :
    ∀ entry ∈ captured next, ∀ acquisition, entry.acquisition = some acquisition →
      entry.event.threadId = some (ids acquisition) ∧ Source next acquisition (ids acquisition) := by
  intro entry member acquisition belongs
  rw [silent] at member
  obtain ⟨carries, source⟩ := holds.carried entry member acquisition belongs
  exact ⟨carries, keeps.source source⟩

theorem emit_keeps (state : State) (thread : Thread) (acquisition : Option Acquisition)
    (event : ProbeEvent) : KeepsSources state (state.emit thread acquisition event) := by
  rw [emit_eq]
  exact ⟨fun _ _ kept => kept, fun _ _ begun => ⟨begun, rfl⟩, fun _ _ known => known,
    fun _ quiet => ⟨quiet, fun _ carries => carries⟩⟩

/-- An emission keeps the invariant for every choice of ids that its own event respects. -/
theorem attributed_emit {acquisition : Option Acquisition} {event : ProbeEvent}
    {ids' : Acquisition → UInt64} (holds : Attributed state ids)
    (same : ∀ entry ∈ captured state, ∀ other, entry.acquisition = some other → ids' other = ids other)
    (new : ∀ other, acquisition = some other →
      event.threadId = some (ids' other) ∧ Source state other (ids' other)) :
    Attributed (state.emit thread acquisition event) ids' := by
  have keeps := emit_keeps state thread acquisition event
  have carried : ∀ entry ∈ captured (state.emit thread acquisition event), ∀ other,
      entry.acquisition = some other → entry.event.threadId = some (ids' other) ∧
        Source (state.emit thread acquisition event) other (ids' other) := by
    intro entry member other belongs
    rcases mem_captured_emit member with old | rfl
    · obtain ⟨carries, source⟩ := holds.carried entry old other belongs
      rw [same entry old other belongs]
      exact ⟨carries, keeps.source source⟩
    · obtain ⟨carries, source⟩ := new other belongs
      exact ⟨carries, keeps.source source⟩
  rw [emit_eq] at carried ⊢
  exact ⟨holds.hooked, holds.observed, holds.polled, holds.last, holds.begun, holds.guarded, carried⟩

theorem attributed_emit_none {event : ProbeEvent} (holds : Attributed state ids) :
    Attributed (state.emit thread none event) ids :=
  attributed_emit holds (fun _ _ _ _ => rfl) (fun _ belongs => by cases belongs)

/-- A new event of an acquisition keeps the invariant when it carries the id its source gives. -/
theorem attributable_emit_some {acquisition : Acquisition} {event : ProbeEvent} {id : UInt64}
    (holds : Attributed state ids) (carries : event.threadId = some id)
    (source : Source state acquisition id)
    (agrees : Source state acquisition (ids acquisition) → ids acquisition = id) :
    Attributable (state.emit thread (some acquisition) event) := by
  refine ⟨Function.update ids acquisition id, attributed_emit holds ?_ ?_⟩
  · intro entry old other belongs
    by_cases same : other = acquisition
    · subst same
      rw [Function.update_self]
      exact (agrees (holds.carried entry old other belongs).2).symm
    · exact Function.update_of_ne same _ _
  · intro other belongs
    obtain rfl := Option.some.inj belongs
    rw [Function.update_self]
    exact ⟨carries, source⟩

theorem currentThreadId_keeps (state : State) (thread : Thread) :
    KeepsSources state (state.currentThreadId thread).2 := by
  rw [currentThreadId_eq]
  refine ⟨fun _ _ kept => kept, fun _ _ begun => ⟨begun, rfl⟩, fun _ _ known => known, ?_⟩
  intro other quiet
  refine ⟨quiet, fun id carries => ?_⟩
  by_cases same : other = thread
  · subst same
    change Function.update state.probeThreadId other (some (state.currentThreadId other).1) other = some id
    rw [Function.update_self, currentThreadId_of_some carries]
  · exact (Function.update_of_ne same _ _).trans carries

theorem attributed_currentThreadId (holds : Attributed state ids) :
    Attributed (state.currentThreadId thread).2 ids := by
  have keeps := currentThreadId_keeps state thread
  have silent : captured (state.currentThreadId thread).2 = captured state := by rw [currentThreadId_eq]; rfl
  have carried := holds.carried_of_keeps keeps silent
  rw [currentThreadId_eq] at carried ⊢
  refine ⟨holds.hooked, holds.observed, holds.polled, ?_, holds.begun, holds.guarded, carried⟩
  intro other task polled
  obtain ⟨id, known, carries⟩ := holds.last other task polled
  refine ⟨id, known, ?_⟩
  by_cases same : other = thread
  · subst same
    change Function.update state.probeThreadId other (some (state.currentThreadId other).1) other = some id
    rw [Function.update_self, currentThreadId_of_some carries]
  · exact (Function.update_of_ne same _ _).trans carries

theorem context_thread {other : Thread} (running : state.context thread = .thread other) :
    other = thread := by
  unfold State.context at running
  split at running
  · cases running
  · exact (Context.thread.inj running).symm

theorem context_task {task : TaskRef} (holds : Attributed state ids)
    (running : state.context thread = .task task) : state.lastPolled thread = some task := by
  unfold State.context at running
  split at running
  · next poll polling =>
    rw [holds.polled thread poll polling, Context.task.inj running]
  · cases running

theorem attributed_begin (holds : Attributed state ids) (acquisition : Acquisition) :
    Attributed (state.begin thread acquisition) ids := by
  cases begun : state.owner acquisition with
  | some owner =>
    rw [begin_of_some begun]
    exact holds
  | none =>
    rw [begin_of_none begun]
    have different : ∀ other owner, state.owner other = some owner → other ≠ acquisition := by
      rintro other owner owned rfl
      rw [begun] at owned
      cases owned
    refine ⟨holds.hooked, holds.observed, holds.polled, holds.last, ?_, ?_, holds.carried_of_keeps ?_ rfl⟩
    · intro other task owned
      by_cases same : other = acquisition
      · subst same
        change Function.update state.owner other (some (state.context thread)) other = _ at owned
        rw [Function.update_self] at owned
        change Function.update state.acquiredUnder other (state.lastPolled thread) other = _
        rw [Function.update_self]
        exact context_task holds (Option.some.inj owned)
      · change Function.update state.owner acquisition (some (state.context thread)) other = _ at owned
        rw [Function.update_of_ne same] at owned
        exact (Function.update_of_ne same _ _).trans (holds.begun other task owned)
    · intro guard lock taken
      obtain ⟨owner, owned⟩ := holds.guarded guard lock taken
      exact ⟨owner, (Function.update_of_ne (different _ owner owned) _ _).trans owned⟩
    · refine ⟨fun _ _ kept => kept, ?_, fun _ _ known => known,
        fun _ quiet => ⟨quiet, fun _ carries => carries⟩⟩
      intro other owner owned
      have apart := different other owner owned
      exact ⟨(Function.update_of_ne apart _ _).trans owned, Function.update_of_ne apart _ _⟩

/-- The thread works on an acquisition under the poll in which it began. -/
structure Ready (state : State) (thread : Thread) (acquisition : Acquisition) : Prop where
  begun : ∃ owner, state.owner acquisition = some owner
  turn : state.lastPolled thread = state.acquiredUnder acquisition
  own : ∀ other, state.owner acquisition = some (.thread other) → other = thread

theorem ready_begin {acquisition : Acquisition} {taken : Step} (holds : Attributed state ids)
    (works : worksOn taken = some (thread, acquisition)) (notMoved : NotMoved state taken)
    (inTurn : InTurn state taken) : Ready (state.begin thread acquisition) thread acquisition := by
  have stays := notMoved (thread, acquisition) works
  have turn := inTurn (thread, acquisition) works
  cases begun : state.owner acquisition with
  | none =>
    rw [begin_of_none begun]
    refine ⟨⟨state.context thread, Function.update_self ..⟩,
      (Function.update_self acquisition (state.lastPolled thread) state.acquiredUnder).symm, ?_⟩
    intro other owned
    change Function.update state.owner acquisition (some (state.context thread)) acquisition = _ at owned
    rw [Function.update_self] at owned
    exact context_thread (Option.some.inj owned)
  | some owner =>
    rw [begin_of_some begun]
    have begun' : (state.owner acquisition).isSome := by rw [begun]; rfl
    rcases stays owner begun with here | ⟨idle, ofTask⟩
    · refine ⟨⟨owner, begun⟩, ?_, ?_⟩
      · cases polling : state.polling thread with
        | none => exact turn begun' polling
        | some poll =>
          have running : state.context thread = .task poll.task := by
            unfold State.context
            rw [polling]
          rw [holds.polled thread poll polling]
          exact (holds.begun acquisition poll.task (by rw [begun, ← here, running])).symm
      · intro other owned
        rw [begun, ← here] at owned
        exact context_thread (Option.some.inj owned)
    · refine ⟨⟨_, begun⟩, turn begun' idle, ?_⟩
      intro other owned
      obtain rfl := Option.some.inj (begun.symm.trans owned)
      cases ofTask

/-- An event of a guard or waiter, emitted under the poll in which the acquisition began. -/
theorem attributable_emitAs {acquisition : Acquisition} {event : UInt64 → ProbeEvent}
    (holds : Attributed state ids) (ready : Ready state thread acquisition)
    (live : ∀ call, acquisition ≠ .tracked call)
    (carries : ∀ id, (event id).threadId = some id) :
    Attributable (state.emitAs thread (some acquisition) event) := by
  have source_iff : ∀ at' id, Source at' acquisition id ↔ Readable at' acquisition id := by
    intro at' id
    cases acquisition with
    | tracked call => exact absurd rfl (live call)
    | guard index => exact Iff.rfl
    | waiter index => exact Iff.rfl
  obtain ⟨owner, begun⟩ := ready.begun
  have same := currentThreadId_eq state thread
  -- the task last polled on the thread gives the id that is read
  have read : ∀ task, state.acquiredUnder acquisition = some task →
      state.taskId task = some (state.currentThreadId thread).1 := by
    intro task under
    obtain ⟨id, known, held⟩ := holds.last thread task (ready.turn.trans under)
    rw [currentThreadId_of_some held]
    exact known
  have stored : (state.currentThreadId thread).2.probeThreadId thread =
      some (state.currentThreadId thread).1 := by
    rw [same]
    exact Function.update_self ..
  refine attributable_emit_some (attributed_currentThreadId holds) (carries _) ?_ ?_
  · rw [source_iff]
    refine ⟨⟨owner, by rw [same]; exact begun⟩, ?_, ?_⟩
    · intro task under
      rw [same] at under ⊢
      exact read task under
    · intro _ other owned _
      rw [same] at owned
      obtain rfl := ready.own other owned
      exact stored
  · rw [source_iff]
    rintro ⟨-, byTask, byThread⟩
    cases under : state.acquiredUnder acquisition with
    | some task =>
      have known := byTask task (by rw [same]; exact under)
      rw [same] at known
      exact Option.some.inj (known.symm.trans (read task under))
    | none =>
      cases owner with
      | task task =>
        have := holds.begun acquisition task begun
        rw [under] at this
        cases this
      | thread other =>
        obtain rfl := ready.own other begun
        have held := byThread (by rw [same]; exact under) other (by rw [same]; exact begun)
          (by rw [same]; exact ready.turn.trans under)
        exact Option.some.inj (held.symm.trans stored)

/-- A state that differs in nothing the invariant reads, its guards apart. -/
theorem attributed_quiet (holds : Attributed state ids)
    (quiet : next = { state with
      locks := next.locks, asyncs := next.asyncs, waiters := next.waiters, guards := next.guards,
      createdReported := next.createdReported, currentTaskId := next.currentTaskId,
      registered := next.registered })
    (guarded : ∀ guard lock, next.guards guard = some lock →
      ∃ owner, state.owner (.guard guard) = some owner) : Attributed next ids := by
  rw [quiet] at guarded ⊢
  refine ⟨holds.hooked, holds.observed, holds.polled, holds.last, holds.begun, guarded,
    holds.carried_of_keeps ?_ rfl⟩
  exact ⟨fun _ _ kept => kept, fun _ _ begun => ⟨begun, rfl⟩, fun _ _ known => known,
    fun _ calm => ⟨calm, fun _ carries => carries⟩⟩

theorem attributed_setTask {task : TaskRef} {value : Task} (holds : Attributed state ids)
    (wrapped : value.observed = true) (known : ∃ id, state.taskId task = some id) :
    Attributed (state.setTask task value) ids := by
  refine ⟨holds.hooked, ?_, holds.polled, holds.last, holds.begun, holds.guarded,
    holds.carried_of_keeps ?_ rfl⟩
  · intro other value' present
    change Function.update state.tasks task (some value) other = _ at present
    by_cases same : other = task
    · subst same
      rw [Function.update_self] at present
      obtain rfl := Option.some.inj present
      exact ⟨wrapped, known⟩
    · rw [Function.update_of_ne same] at present
      exact holds.observed other value' present
  · exact ⟨fun _ _ kept => kept, fun _ _ begun => ⟨begun, rfl⟩, fun _ _ known => known,
      fun _ calm => ⟨calm, fun _ carries => carries⟩⟩

/-- A task that can be polled is observed under its id. -/
theorem observedId_eq {task : TaskRef} {value : Task} (holds : Attributed state ids)
    (present : state.tasks task = some value) :
    ∃ id, observedId state task value = some id ∧ state.taskId task = some id := by
  obtain ⟨wrapped, id, known⟩ := holds.observed task value present
  refine ⟨id, ?_, known⟩
  unfold observedId
  rw [holds.hooked, wrapped]
  exact known

/-- A report of an async hook by a thread that is ready for its acquisition, if it has one. -/
theorem attributable_report {report : AsyncReport Handle ℕ} (holds : Attributed state ids)
    (ready : ∀ acquisition, report.acquisition = some acquisition → Ready state thread acquisition) :
    Attributable (state.report thread report) := by
  unfold State.report
  cases belongs : report.acquisition with
  | none => exact ⟨ids, attributed_emit_none (attributed_currentThreadId holds)⟩
  | some acquisition =>
    refine attributable_emitAs holds (ready acquisition belongs) ?_ (fun id => asyncReport_threadId _ id)
    rintro call rfl
    cases report <;> cases belongs

theorem attributed_beginReport {report : AsyncReport Handle ℕ} (holds : Attributed state ids) :
    Attributed (state.beginReport thread report) ids := by
  unfold State.beginReport
  split
  · exact attributed_begin holds _
  · exact holds

theorem ready_beginReport {report : AsyncReport Handle ℕ} {taken : Step} (holds : Attributed state ids)
    (works : worksOn taken = report.acquisition.map fun acquisition => (thread, acquisition))
    (notMoved : NotMoved state taken) (inTurn : InTurn state taken) (acquisition : Acquisition)
    (belongs : report.acquisition = some acquisition) :
    Ready (state.beginReport thread report) thread acquisition := by
  unfold State.beginReport
  rw [belongs] at works ⊢
  exact ready_begin holds works notMoved inTurn

/-- The creation report of a semaphore belongs to no acquisition and disturbs none. -/
theorem attributed_reportCreated {permits : ℕ} {resource : Handle} (holds : Attributed state ids) :
    Attributed (state.reportCreated thread permits resource) ids := by
  unfold State.reportCreated
  split
  · exact holds
  · exact attributed_emit_none (attributed_currentThreadId (attributed_quiet holds rfl holds.guarded))

theorem ready_reportCreated {permits : ℕ} {resource : Handle} {acquisition : Acquisition}
    (ready : Ready state thread acquisition) :
    Ready (state.reportCreated thread permits resource) thread acquisition := by
  unfold State.reportCreated
  split
  · exact ready
  · unfold State.report
    rw [emitAs_eq]
    exact ⟨ready.begun, ready.turn, ready.own⟩

theorem attributable_lock {lock : Handle} {guard : ℕ} (holds : Attributed state ids)
    (notMoved : NotMoved state (.lock thread lock guard)) (inTurn : InTurn state (.lock thread lock guard))
    (stepped : step state (.lock thread lock guard) = some next) : Attributable next := by
  simp only [step] at stepped
  split at stepped
  · next id present fresh =>
    have ready := ready_begin holds rfl notMoved inTurn
    have begun : Attributed (state.begin thread (.guard guard)) ids := attributed_begin holds _
    have held : Attributed { state.begin thread (.guard guard) with
        guards := Function.update state.guards guard (some lock) } ids := by
      refine attributed_quiet begun rfl ?_
      intro other lock' taken
      change Function.update state.guards guard (some lock) other = some lock' at taken
      by_cases same : other = guard
      · rw [same]
        exact ready.begun
      · rw [Function.update_of_ne same] at taken
        exact begun.guarded other lock' (by rw [begin_eq]; exact taken)
    obtain rfl := Option.some.inj stepped
    split
    · exact attributable_emitAs held ⟨ready.begun, ready.turn, ready.own⟩ (fun _ h => by cases h)
        (fun _ => rfl)
    · exact ⟨ids, held⟩
  · cases stepped

theorem attributable_unlock {guard : ℕ} {panicking : Bool} (holds : Attributed state ids)
    (notMoved : NotMoved state (.unlock thread guard panicking))
    (inTurn : InTurn state (.unlock thread guard panicking))
    (stepped : step state (.unlock thread guard panicking) = some next) : Attributable next := by
  simp only [step] at stepped
  split at stepped
  · next lock taken =>
    split at stepped
    · next id present =>
      obtain ⟨owner, begun⟩ := holds.guarded guard lock taken
      have ready := ready_begin holds rfl notMoved inTurn
      rw [begin_of_some begun] at ready
      have freed : Attributed { state with guards := Function.update state.guards guard none } ids := by
        refine attributed_quiet holds rfl ?_
        intro other lock' kept
        change Function.update state.guards guard none other = some lock' at kept
        by_cases same : other = guard
        · rw [same]
          exact ⟨owner, begun⟩
        · rw [Function.update_of_ne same] at kept
          exact holds.guarded other lock' kept
      obtain rfl := Option.some.inj stepped
      split
      · exact attributable_emitAs freed ⟨ready.begun, ready.turn, ready.own⟩ (fun _ h => by cases h)
          (fun _ => rfl)
      · exact ⟨ids, freed⟩
    · cases stepped
  · cases stepped

theorem attributable_asyncReport {report : AsyncReport Handle ℕ} (holds : Attributed state ids)
    (notMoved : NotMoved state (.asyncReport thread report))
    (inTurn : InTurn state (.asyncReport thread report))
    (stepped : step state (.asyncReport thread report) = some next) : Attributable next := by
  simp only [step] at stepped
  split at stepped
  · obtain rfl := Option.some.inj stepped
    split
    · exact attributable_report (attributed_beginReport holds)
        (ready_beginReport holds rfl notMoved inTurn)
    · exact ⟨ids, attributed_beginReport holds⟩
  · cases stepped

theorem attributable_semaphoreReport {permits : ℕ} {report : AsyncReport Handle ℕ}
    (holds : Attributed state ids) (notMoved : NotMoved state (.semaphoreReport thread permits report))
    (inTurn : InTurn state (.semaphoreReport thread permits report))
    (stepped : step state (.semaphoreReport thread permits report) = some next) :
    Attributable next := by
  simp only [step] at stepped
  split at stepped
  · obtain rfl := Option.some.inj stepped
    split
    · refine attributable_report (attributed_reportCreated (attributed_beginReport holds)) ?_
      intro acquisition belongs
      exact ready_reportCreated (ready_beginReport holds rfl notMoved inTurn acquisition belongs)
    · exact ⟨ids, attributed_beginReport holds⟩
  · cases stepped

theorem attributable_tracked {call : ℕ} (holds : Attributed state ids)
    (stepped : step state (.trackedCall thread call) = some next) : Attributable next := by
  simp only [step] at stepped
  split at stepped
  · next fresh unowned =>
    have begun : Attributed (state.begin thread (.tracked call)) ids := attributed_begin holds _
    have read : Attributed ((state.begin thread (.tracked call)).currentThreadId thread).2 ids :=
      attributed_currentThreadId begun
    have unread : ((state.begin thread (.tracked call)).currentThreadId thread).2.trackedIds call = none := by
      rw [currentThreadId_eq, begin_eq]
      exact fresh
    obtain rfl := Option.some.inj stepped
    refine ⟨ids, read.hooked, read.observed, read.polled, read.last, read.begun, read.guarded,
      read.carried_of_keeps ?_ rfl⟩
    refine ⟨?_, fun _ _ begun => ⟨begun, rfl⟩, fun _ _ known => known,
      fun _ calm => ⟨calm, fun _ carries => carries⟩⟩
    intro other id kept
    have different : other ≠ call := by
      rintro rfl
      rw [unread] at kept
      cases kept
    exact (Function.update_of_ne different _ _).trans kept
  · cases stepped

theorem attributable_trackedEmit {call : ℕ} {kind : TrackedKind} {resource : String}
    (holds : Attributed state ids)
    (stepped : step state (.trackedEmit thread call kind resource) = some next) : Attributable next := by
  simp only [step] at stepped
  obtain ⟨id, kept, rfl⟩ := Option.map_eq_some_iff.mp stepped
  refine attributable_emit_some holds (tracked_threadId kind id resource) kept ?_
  intro source
  exact Option.some.inj (Eq.trans (Eq.symm source) kept)

theorem attributable_register (holds : Attributed state ids)
    (stepped : step state (.register thread) = some next) : Attributable next := by
  simp only [step] at stepped
  split at stepped
  · have pushed : Attributed { state.setTask (.registered state.registered) ⟨true, 0, false, false⟩ with
        registered := state.registered + 1 } ids :=
      attributed_quiet (attributed_setTask holds rfl ⟨_, rfl⟩) rfl holds.guarded
    obtain rfl := Option.some.inj stepped
    split
    · exact ⟨ids, attributed_emit_none pushed⟩
    · exact ⟨ids, pushed⟩
  · cases stepped

theorem attributable_spawnTask {task : ℕ} (holds : Attributed state ids)
    (stepped : step state (.spawnTask thread task) = some next) : Attributable next := by
  simp only [step] at stepped
  split at stepped
  · cases stepped
  · rw [if_pos holds.hooked] at stepped
    obtain ⟨dynamicTasks, ensured, given⟩ := Option.bind_eq_some_iff.mp stepped
    obtain ⟨id, present, rfl⟩ := Option.map_eq_some_iff.mp given
    have grows : ∀ other id, state.taskId other = some id →
        ({ state with dynamicTasks } : State).taskId other = some id := by
      intro other id known
      cases other with
      | registered index => exact known
      | dynamic index => exact Allocator.ensure_table ensured known
    have allocated : Attributed { state with dynamicTasks } ids := by
      refine ⟨holds.hooked, ?_, holds.polled, ?_, holds.begun, holds.guarded, holds.carried_of_keeps ?_ rfl⟩
      · intro other value known
        obtain ⟨wrapped, id, named⟩ := holds.observed other value known
        exact ⟨wrapped, id, grows other id named⟩
      · intro other last polled
        obtain ⟨id, named, carries⟩ := holds.last other last polled
        exact ⟨id, grows last id named, carries⟩
      · exact ⟨fun _ _ kept => kept, fun _ _ begun => ⟨begun, rfl⟩, grows,
          fun _ calm => ⟨calm, fun _ carries => carries⟩⟩
    have wrapped : Attributed (({ state with dynamicTasks } : State).setTask (.dynamic task)
        ⟨true, 0, false, false⟩) ids := attributed_setTask allocated rfl ⟨id, present⟩
    exact ⟨ids, attributed_emit_none wrapped⟩

theorem attributable_pollStarted {task : TaskRef} (holds : Attributed state ids)
    (stepped : step state (.pollStarted thread task) = some next) : Attributable next := by
  simp only [step] at stepped
  split at stepped
  · next value idle present =>
    split at stepped
    · cases stepped
    · obtain ⟨id, watched, known⟩ := observedId_eq holds present
      rw [watched] at stepped
      obtain rfl := Option.some.inj stepped
      have wrapped : Attributed (state.setTask task
          { value with attempt := saturatingAdd value.attempt 1 }) ids :=
        attributed_setTask holds (holds.observed task value present).1 ⟨id, known⟩
      refine ⟨ids, attributed_emit_none ?_⟩
      refine ⟨holds.hooked, wrapped.observed, ?_, ?_, holds.begun, holds.guarded,
        holds.carried_of_keeps ?_ rfl⟩
      · intro other poll running
        change Function.update state.polling thread (some ⟨task, value.attempt⟩) other = some poll at running
        change Function.update state.lastPolled thread (some task) other = some poll.task
        by_cases same : other = thread
        · subst same
          rw [Function.update_self] at running ⊢
          obtain rfl := Option.some.inj running
          rfl
        · rw [Function.update_of_ne same] at running ⊢
          exact holds.polled other poll running
      · intro other last polled
        change Function.update state.lastPolled thread (some task) other = some last at polled
        change ∃ id', state.taskId last = some id' ∧
          Function.update state.probeThreadId thread (some id) other = some id'
        by_cases same : other = thread
        · subst same
          rw [Function.update_self] at polled ⊢
          obtain rfl := Option.some.inj polled
          exact ⟨id, known, rfl⟩
        · rw [Function.update_of_ne same] at polled ⊢
          exact holds.last other last polled
      · -- on the polled thread no acquisition is readable off the thread any more
        refine ⟨fun _ _ kept => kept, fun _ _ begun => ⟨begun, rfl⟩, fun _ _ known => known, ?_⟩
        intro other calm
        change Function.update state.lastPolled thread (some task) other = none at calm
        by_cases same : other = thread
        · subst same
          rw [Function.update_self] at calm
          cases calm
        · rw [Function.update_of_ne same] at calm
          exact ⟨calm, fun id' carries => (Function.update_of_ne same _ _).trans carries⟩
  · cases stepped

/-- The callbacks at the end of a poll belong to no acquisition and leave the thread's id alone. -/
theorem attributed_pollEndedHooks {id attempt : UInt64} {outcome : TaskPollOutcome}
    (holds : Attributed state ids) :
    Attributed (state.pollEndedHooks thread id attempt outcome) ids := by
  have emitted : ∀ event, Attributed (state.emit thread none event) ids :=
    fun event => attributed_emit_none holds
  cases outcome with
  | pending => exact attributed_quiet (emitted _) rfl (emitted _).guarded
  | ready =>
    have completed := attributed_quiet (emitted (.futureReady id none attempt)) rfl (emitted _).guarded
    exact attributed_emit_none (attributed_quiet completed rfl completed.guarded)
  | panicked =>
    have completed := attributed_quiet holds rfl holds.guarded
    exact attributed_emit_none (attributed_quiet completed rfl completed.guarded)

theorem attributable_pollCompleted {outcome : TaskPollOutcome} (holds : Attributed state ids)
    (stepped : step state (.pollCompleted thread outcome) = some next) : Attributable next := by
  simp only [step] at stepped
  split at stepped
  · next poll running =>
    split at stepped
    · next value present =>
      obtain ⟨id, watched, known⟩ := observedId_eq holds present
      rw [watched] at stepped
      obtain rfl := Option.some.inj stepped
      have reported : Attributed (state.pollEndedHooks thread id poll.attempt outcome) ids :=
        attributed_pollEndedHooks holds
      have same := pollEndedHooks_eq state thread id poll.attempt outcome
      have wrapped : Attributed ((state.pollEndedHooks thread id poll.attempt outcome).setTask poll.task
          { value with finished := outcome != .pending }) ids :=
        attributed_setTask reported (holds.observed poll.task value present).1
          ⟨id, by rw [same]; exact known⟩
      refine ⟨ids, wrapped.hooked, wrapped.observed, ?_, wrapped.last, wrapped.begun, wrapped.guarded,
        wrapped.carried_of_keeps ?_ rfl⟩
      · intro other poll' running'
        refine wrapped.polled other poll' ?_
        change Function.update (state.pollEndedHooks thread id poll.attempt outcome).polling thread none other
          = some poll' at running'
        by_cases equal : other = thread
        · subst equal
          rw [Function.update_self] at running'
          cases running'
        · rw [Function.update_of_ne equal] at running'
          exact running'
      · exact ⟨fun _ _ kept => kept, fun _ _ begun => ⟨begun, rfl⟩, fun _ _ known => known,
          fun _ calm => ⟨calm, fun _ carries => carries⟩⟩
    · cases stepped
  · cases stepped

theorem attributable_join {task : TaskRef} {event : UInt64 → UInt64 → ProbeEvent}
    (holds : Attributed state ids) (joined : join state thread task event = some next) :
    Attributable next := by
  unfold join at joined
  split at joined
  · split at joined
    · obtain rfl := Option.some.inj joined
      unfold State.joinHook
      split
      · exact ⟨ids, attributed_emit_none holds⟩
      · exact ⟨ids, holds⟩
    · obtain rfl := Option.some.inj joined
      exact ⟨ids, holds⟩
  · cases joined

/-- One boundary of a body keeps the attribution when it moves nothing and drops in turn. -/
theorem attributable_step {taken : Step} (admitted : NotMoved state taken ∧ InTurn state taken)
    (holds : Attributable state) (stepped : step state taken = some next) : Attributable next := by
  obtain ⟨ids, holds⟩ := holds
  have quiet : ∀ {next}, next = { state with
      locks := next.locks, asyncs := next.asyncs, waiters := next.waiters, guards := state.guards } →
      Attributable next := by
    intro next same
    refine ⟨ids, attributed_quiet holds (by rw [same]) ?_⟩
    rw [same]
    exact holds.guarded
  cases taken with
  | newLock lock =>
    obtain ⟨locks, -, rfl⟩ := Option.map_eq_some_iff.mp stepped
    exact quiet rfl
  | newAsync resource =>
    obtain ⟨asyncs, -, rfl⟩ := Option.map_eq_some_iff.mp stepped
    exact quiet rfl
  | newWaiter waiter =>
    obtain ⟨waiters, -, rfl⟩ := Option.map_eq_some_iff.mp stepped
    exact quiet rfl
  | lock thread lock guard => exact attributable_lock holds admitted.1 admitted.2 stepped
  | unlock thread guard panicking => exact attributable_unlock holds admitted.1 admitted.2 stepped
  | asyncReport thread report => exact attributable_asyncReport holds admitted.1 admitted.2 stepped
  | semaphoreReport thread permits report =>
    exact attributable_semaphoreReport holds admitted.1 admitted.2 stepped
  | trackedCall thread call => exact attributable_tracked holds stepped
  | trackedEmit thread call kind resource => exact attributable_trackedEmit holds stepped
  | register thread => exact attributable_register holds stepped
  | spawnTask thread task => exact attributable_spawnTask holds stepped
  | pollStarted thread task => exact attributable_pollStarted holds stepped
  | pollCompleted thread outcome => exact attributable_pollCompleted holds stepped
  | dropTask task =>
    obtain ⟨value, present, rfl⟩ := Option.map_eq_some_iff.mp stepped
    obtain ⟨wrapped, known⟩ := holds.observed task value present
    exact ⟨ids, attributed_setTask holds wrapped known⟩
  | joinRequested thread task => exact attributable_join holds stepped
  | joinResolved thread task => exact attributable_join holds stepped

/-- A tasks harness starts with nothing captured and nothing polled. -/
theorem attributable_start (process : Process) (held : Thread → Option UInt64) :
    Attributable (start process .tasks held) := by
  refine ⟨fun _ => 0, ?_, ?_, ?_, ?_, ?_, ?_, ?_⟩
  · exact Bool.or_true _
  · intro task value present
    cases present
  · intro thread poll running
    cases running
  · intro thread task polled
    cases polled
  · intro acquisition task owned
    cases owned
  · intro guard lock taken
    cases taken
  · intro entry member
    cases member

/-- In every tasks-mode run that drops guards and waiters outside polls only while the last task
polled is the one under which they were acquired, every release carries its acquisition's thread
id. -/
theorem releases_attributed_of_inTurn (process : Process) (held : Thread → Option UInt64)
    (tape : List Step) (final : State)
    (reached : run? step (start process .tasks held) tape = some final)
    (notMoved : Along step NotMoved (start process .tasks held) tape)
    (inTurn : Along step InTurn (start process .tasks held) tape) :
    ReleasesAttributed (captured final) := by
  obtain ⟨ids, holds⟩ := along_invariant Attributable
    (fun _ _ _ admitted holds stepped => attributable_step admitted holds stepped)
    (attributable_start process held) reached (notMoved.and inTurn)
  intro opening opened closing closed acquisition belongs belongs' _ _
  rw [(holds.carried opening opened acquisition belongs).1, (holds.carried closing closed acquisition belongs').1]

/-- A guard taken and dropped in one poll of a dynamic task, after a poll of its parent. -/
def turnTape : List Step :=
  [.register 0, .newAsync (.own 0), .pollStarted 0 (.registered 0), .spawnTask 0 0,
    .pollCompleted 0 .ready, .pollStarted 0 (.dynamic 0), .newWaiter 0,
    .asyncReport 0 (.acquired (.own 0) 0 .mutex), .asyncReport 0 (.released (.own 0) 0 .mutex),
    .pollCompleted 0 .ready]

theorem releases_attributed_of_inTurn_turnTape :
    ∃ final, run? step (start {} .tasks fun _ => none) turnTape = some final ∧
      ReleasesAttributed (captured final) := by
  have runs : (run? step (start {} .tasks fun _ => none) turnTape).isSome := by decide
  obtain ⟨final, reached⟩ := Option.isSome_iff_exists.mp runs
  exact ⟨final, reached, releases_attributed_of_inTurn {} (fun _ => none) turnTape final reached
    (by decide) (by decide)⟩

/-- A dynamic task waits with a guard of an async mutex; its parent aborts it in a later poll, and the
executor drops the future between polls. -/
def abortTape : List Step :=
  [.register 0, .newAsync (.own 0), .pollStarted 0 (.registered 0), .spawnTask 0 0,
    .pollCompleted 0 .pending, .pollStarted 0 (.dynamic 0), .newWaiter 0,
    .asyncReport 0 (.acquired (.own 0) 0 .mutex), .pollCompleted 0 .pending,
    .pollStarted 0 (.registered 0), .pollCompleted 0 .ready, .dropTask (.dynamic 0),
    .asyncReport 0 (.released (.own 0) 0 .mutex)]

/-- The guard was acquired by the dynamic task and is released under its parent's id. -/
theorem abortedGuard_misattributed :
    ∃ final, run? step (start {} .tasks fun _ => none) abortTape = some final ∧
      Along step NotMoved (start {} .tasks fun _ => none) abortTape ∧
      ¬ ReleasesAttributed (captured final) := by
  have ran : ((run? step (start {} .tasks fun _ => none) abortTape).map captured).map
      (List.filter fun entry => entry.acquisition.isSome) =
      some [⟨.task (.dynamic 0), some (.waiter 0), .asyncLockAcquired 0x8000000000000000 1 1 .mutex⟩,
        ⟨.thread 0, some (.waiter 0), .asyncLockReleased 0 1 1 .mutex⟩] := by decide
  obtain ⟨log, captures, kept⟩ := Option.map_eq_some_iff.mp ran
  obtain ⟨final, reached, rfl⟩ := Option.map_eq_some_iff.mp captures
  refine ⟨final, reached, by decide, fun attributed => ?_⟩
  have acquired : ⟨.task (.dynamic 0), some (.waiter 0),
      .asyncLockAcquired 0x8000000000000000 1 1 .mutex⟩ ∈ captured final :=
    List.mem_of_mem_filter (kept ▸ List.mem_cons_self)
  have released : ⟨.thread 0, some (.waiter 0), .asyncLockReleased 0 1 1 .mutex⟩ ∈ captured final :=
    List.mem_of_mem_filter (kept ▸ List.mem_cons_of_mem _ List.mem_cons_self)
  have same := attributed _ acquired _ released (.waiter 0) rfl rfl rfl rfl
  revert same
  decide

end Laplace.Soundness
