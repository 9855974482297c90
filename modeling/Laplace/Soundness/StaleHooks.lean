import Laplace.Soundness.TestOrder

/-! # Hooks left by earlier tests

A `threads` or `scenario` harness whose body reaches a hook that it does not install itself captures
strictly more after a `tasks` test than in a fresh process: every boundary emits at least as much,
and the first one of the missing family more. With the result on contained bodies this settles when
a capture depends on the order of the tests.
-/

namespace Laplace.Soundness

open Laplace.Machine Laplace.Model Laplace.Model.Probe
open Laplace.Model.Runtime (saturatingAdd)

/-- A task as an observed run wraps it. -/
def watched (value : Task) : Task := { value with observed := true }

/-- One body run with only its own hooks, and run with every hook: the second log is `gap` events
ahead. `installed` says whether the first run has the lock hook, and `room` steps are left before
the second one could run out of dynamic task ids. -/
structure Alike (installed : Bool) (room gap : ℕ) (state state' : State) : Prop where
  lockHook : state.lockHook = installed ∧ state'.lockHook = true
  taskHook : state.taskHook = false ∧ state'.taskHook = true
  asyncHooks : state.asyncHooks = false ∧ state'.asyncHooks = true
  slot : state.globalProbeSender = none ∧ state'.globalProbeSender = none
  senders : ∀ thread, state.probeSender thread = none ∧ state'.probeSender thread = none
  logs : ∃ log log', state.session = some log ∧ state'.session = some log' ∧
    log.length + gap ≤ log'.length
  locks : state'.locks = state.locks
  asyncs : state'.asyncs = state.asyncs
  waiters : state'.waiters = state.waiters
  guards : state'.guards = state.guards
  owner : state'.owner = state.owner
  registered : state'.registered = state.registered
  polling : state'.polling = state.polling
  initialized : state'.initialized = state.initialized
  trackedIds : ∀ call, (state'.trackedIds call).isSome = (state.trackedIds call).isSome
  tasks : ∀ task, state'.tasks task = (state.tasks task).map watched
  named : ∀ task value, state.tasks task = some value → ∃ id, state'.taskId task = some id
  room : state'.dynamicTasks.next.toNat + room < 2 ^ 64

/-- A guard or a task that the first run did not report has put the second one ahead. -/
structure Ahead (installed : Bool) (room gap : ℕ) (state state' : State) : Prop
    extends Alike installed room gap state state' where
  held : installed = false → ∀ guard lock, state.guards guard = some lock → 1 ≤ gap
  tasked : ∀ task value, state.tasks task = some value → 1 ≤ gap

section

variable {state : State} {thread : Thread} {log : List Entry}

theorem emit_grows (sender : state.probeSender thread = none) (slot : state.globalProbeSender = none)
    (opened : state.session = some log) (acquisition : Option Acquisition) (event : ProbeEvent) :
    ∃ longer, (state.emit thread acquisition event).session = some longer ∧
      longer.length = log.length + 1 := by
  rw [emit_open sender slot opened]
  exact ⟨_, rfl, List.length_append⟩

theorem emitAs_grows (sender : state.probeSender thread = none) (slot : state.globalProbeSender = none)
    (opened : state.session = some log) (acquisition : Option Acquisition) (event : UInt64 → ProbeEvent) :
    ∃ longer, (state.emitAs thread acquisition event).session = some longer ∧
      longer.length = log.length + 1 := by
  refine emit_grows ?_ ?_ ?_ acquisition _
  · rw [currentThreadId_eq]; exact sender
  · rw [currentThreadId_eq]; exact slot
  · rw [currentThreadId_eq]; exact opened

end

section

variable {installed : Bool} {room gap : ℕ} {state state' next : State} {thread : Thread}

theorem Alike.less (alike : Alike installed (room + 1) gap state state') :
    Alike installed room gap state state' :=
  { alike with room := by have := alike.room; omega }

theorem Alike.ahead (alike : Alike installed room gap state state') (positive : 1 ≤ gap) :
    Ahead installed room gap state state' :=
  ⟨alike, fun _ _ _ _ => positive, fun _ _ _ => positive⟩

/-- Only the second run reports. -/
theorem Alike.emit (alike : Alike installed room gap state state') (acquisition : Option Acquisition)
    (event : ProbeEvent) :
    Alike installed room (gap + 1) state (state'.emit thread acquisition event) := by
  obtain ⟨log, log', opened, opened', further⟩ := alike.logs
  obtain ⟨longer, extended, grown⟩ :=
    emit_grows (alike.senders thread).2 alike.slot.2 opened' acquisition event
  rw [emit_eq, extended]
  exact { alike with logs := ⟨log, longer, opened, rfl, by omega⟩ }

theorem Alike.emitAs (alike : Alike installed room gap state state') (acquisition : Option Acquisition)
    (event : UInt64 → ProbeEvent) :
    Alike installed room (gap + 1) state (state'.emitAs thread acquisition event) := by
  obtain ⟨log, log', opened, opened', further⟩ := alike.logs
  obtain ⟨longer, extended, grown⟩ :=
    emitAs_grows (alike.senders thread).2 alike.slot.2 opened' acquisition event
  rw [emitAs_eq, extended]
  exact { alike with logs := ⟨log, longer, opened, rfl, by omega⟩ }

theorem Alike.begin (alike : Alike installed room gap state state') (thread : Thread)
    (acquisition : Acquisition) :
    Alike installed room gap (state.begin thread acquisition) (state'.begin thread acquisition) := by
  have context : state'.context thread = state.context thread := by
    unfold State.context
    rw [alike.polling]
  have same : (state'.begin thread acquisition).owner = (state.begin thread acquisition).owner := by
    cases begun : state.owner acquisition with
    | some context =>
      rw [begin_of_some begun, begin_of_some (alike.owner ▸ begun), alike.owner]
    | none =>
      rw [begin_of_none begun, begin_of_none (alike.owner ▸ begun)]
      change Function.update state'.owner acquisition (some (state'.context thread)) =
        Function.update state.owner acquisition (some (state.context thread))
      rw [alike.owner, context]
  rw [begin_eq state, begin_eq state']
  exact { alike with owner := same }

theorem Alike.beginReport (alike : Alike installed room gap state state') (thread : Thread)
    (report : AsyncReport Handle ℕ) :
    Alike installed room gap (state.beginReport thread report) (state'.beginReport thread report) := by
  unfold State.beginReport
  split
  · exact alike.begin thread _
  · exact alike

theorem Alike.read (alike : Alike installed room gap state state') (thread : Thread) :
    Alike installed room gap (state.currentThreadId thread).2 (state'.currentThreadId thread).2 := by
  rw [currentThreadId_eq state, currentThreadId_eq state']
  exact { alike with }

theorem Alike.keep (alike : Alike installed room gap state state') (call : ℕ) (id id' : UInt64) :
    Alike installed room gap
      { state with trackedIds := Function.update state.trackedIds call (some id) }
      { state' with trackedIds := Function.update state'.trackedIds call (some id') } := by
  refine { alike with trackedIds := ?_ }
  intro other
  change (Function.update state'.trackedIds call (some id') other).isSome =
    (Function.update state.trackedIds call (some id) other).isSome
  by_cases same : other = call
  · rw [same, Function.update_self, Function.update_self]
    rfl
  · rw [Function.update_of_ne same, Function.update_of_ne same]
    exact alike.trackedIds other

theorem Alike.reportCreated (alike : Alike installed room gap state state') (thread : Thread)
    (permits : ℕ) (resource : Handle) :
    ∃ gap', gap ≤ gap' ∧ Alike installed room gap' state (state'.reportCreated thread permits resource) := by
  unfold State.reportCreated
  split
  · exact ⟨gap, le_rfl, alike⟩
  · have marked : Alike installed room gap state
        { state' with createdReported := Function.update state'.createdReported resource true } :=
      { alike with }
    exact ⟨gap + 1, Nat.le_succ _, marked.emitAs _ _⟩

theorem Alike.setTask {value' : Task} (alike : Alike installed room gap state state') (task : TaskRef)
    (value : Task) (same : value' = watched value) (named : ∃ id, state'.taskId task = some id) :
    Alike installed room gap (state.setTask task value) (state'.setTask task value') := by
  refine { alike with tasks := ?_, named := ?_ }
  · intro other
    change Function.update state'.tasks task (some value') other =
      (Function.update state.tasks task (some value) other).map watched
    by_cases equal : other = task
    · rw [equal, Function.update_self, Function.update_self, same]
      rfl
    · rw [Function.update_of_ne equal, Function.update_of_ne equal]
      exact alike.tasks other
  · intro other found present
    change Function.update state.tasks task (some value) other = some found at present
    by_cases equal : other = task
    · rw [equal]
      exact named
    · rw [Function.update_of_ne equal] at present
      exact alike.named other found present

/-- The second run observes the task that the first one merely has. -/
theorem Alike.observedId {task : TaskRef} {value : Task} (alike : Alike installed room gap state state')
    (present : state.tasks task = some value) :
    observedId state task value = none ∧
      ∃ id, observedId state' task (watched value) = some id ∧ state'.taskId task = some id := by
  obtain ⟨id, named⟩ := alike.named task value present
  refine ⟨?_, id, ?_, named⟩
  · unfold Probe.observedId
    rw [alike.taskHook.1]
    rfl
  · unfold Probe.observedId
    rw [alike.taskHook.2]
    exact named

theorem Alike.current (alike : Alike installed room gap state state') (current : Option UInt64) :
    Alike installed room gap state
      { state' with currentTaskId := Function.update state'.currentTaskId thread current } :=
  { alike with }

theorem Alike.pollEndedHooks (alike : Alike installed room gap state state') (thread : Thread)
    (id attempt : UInt64) (outcome : TaskPollOutcome) :
    ∃ gap', gap ≤ gap' ∧
      Alike installed room gap' state (state'.pollEndedHooks thread id attempt outcome) := by
  cases outcome with
  | pending => exact ⟨gap + 1, by omega, (alike.emit none _).current none⟩
  | ready =>
    exact ⟨gap + 1 + 1, by omega, (((alike.emit none _).current none).current none).emit none _⟩
  | panicked => exact ⟨gap + 1, by omega, ((alike.current none).current none).emit none _⟩

/-! ## One step -/

/-- The second run takes the step too and stays ahead; it is ahead for good once the step reaches a
hook that the first run has not installed. -/
def Followed (installed : Bool) (room gap : ℕ) (taken : Step) (next state' : State) : Prop :=
  ∃ next' gap', step state' taken = some next' ∧ Ahead installed room gap' next next' ∧ gap ≤ gap' ∧
    ((∃ reached ∈ family taken, (reached == .lock && installed) = false) → 1 ≤ gap')

/-- The second run has reported something that the first one has not. -/
theorem Alike.followed {next' : State} {gap' : ℕ} {taken : Step}
    (alike : Alike installed room gap' next next') (stepped : step state' taken = some next')
    (further : gap ≤ gap') (positive : 1 ≤ gap') : Followed installed room gap taken next state' :=
  ⟨next', gap', stepped, alike.ahead positive, further, fun _ => positive⟩

/-- The step reaches nothing but what both runs report. -/
theorem Ahead.followed {next' : State} {taken : Step} (ahead : Ahead installed room gap next next')
    (stepped : step state' taken = some next')
    (covered : ∀ reached ∈ family taken, (reached == .lock && installed) = true) :
    Followed installed room gap taken next state' := by
  refine ⟨next', gap, stepped, ahead, le_rfl, ?_⟩
  rintro ⟨reached, member, missing⟩
  rw [covered reached member] at missing
  cases missing

theorem Alike.resolves (alike : Alike installed room gap state state') (report : AsyncReport Handle ℕ) :
    state'.resolves report = state.resolves report := by
  unfold State.resolves
  rw [alike.asyncs, alike.waiters]

end

/-- A harness with no other threads in its process. -/
def alone (harness : Verify) : harness.Schedule where
  moves := harness.body.map .own
  own := by
    rw [List.filterMap_map]
    exact List.filterMap_some

def lockEvents : List ProbeEvent := [.lockAcquired 0 (resourceName 1), .lockReleased 0 (resourceName 1)]

end Laplace.Soundness
