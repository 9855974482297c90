import Laplace.Soundness.TestSequence

/-! # Thread ids as names of contexts

A thread id comes from one of four sources: the ids the harness sets and those that long-lived
threads still hold, the implicit counter that `begin` resets to zero, the positions in the
`TaskSet`, and the reserved dynamic ids. The ranges overlap: the first child thread of a scenario
gets the id of the main thread, and a composition function shares its id with its first task. The
contexts that do emit are told apart exactly as far as their sources are, so the result below asks
for disjoint sources of a given cast of emitting contexts, and for nothing else.
-/

namespace Laplace.Soundness

open Laplace.Machine Laplace.Model Laplace.Model.Probe
open Laplace.Model.Runtime (saturatingAdd)

/-- Two contexts never emit under one thread id. -/
def IdsIdentify (log : List Entry) : Prop :=
  ∀ entry ∈ log, ∀ other ∈ log, ∀ id, entry.event.threadId = some id → other.event.threadId = some id →
    entry.context = other.context

/-- The ids that the emitting contexts can carry do not meet: `given` are the ids of the threads when
the body starts, and `implicit` bounds the implicit ids that are handed out. -/
structure Separate (given : Thread → Option UInt64) (cast : Context → Prop) (implicit : UInt64) : Prop where
  threads : ∀ thread other id, cast (.thread thread) → cast (.thread other) →
    given thread = some id → given other = some id → thread = other
  children : ∀ thread id, cast (.thread thread) → given thread = some id → implicit ≤ id
  registered : ∀ index, index < maxModelTasks → cast (.task (.registered index)) →
    implicit ≤ UInt64.ofNat index ∧
      ∀ thread, cast (.thread thread) → given thread ≠ some (UInt64.ofNat index)
  dynamic : ∀ index, cast (.task (.dynamic index)) → implicit ≤ 0x8000000000000000 ∧
    ∀ thread id, cast (.thread thread) → given thread = some id → id < 0x8000000000000000

/-- The thread whose id a step reads, with the hooks as they are. -/
def reads (state : State) : Step → Option Thread
  | .lock thread .. => if state.lockHook then some thread else none
  | .unlock thread _ panicking => if state.lockHook && !panicking then some thread else none
  | .asyncReport thread _ | .semaphoreReport thread .. => if state.asyncHooks then some thread else none
  | .trackedCall thread _ => some thread
  | _ => none

/-- The context belongs to the cast and has an id of its own: its task is observed, or no poll has
overwritten the thread's id and an implicit id is still to be had. -/
def MaySpeak (cast : Context → Prop) (implicit : UInt64) (state : State) (thread : Thread) : Prop :=
  cast (state.context thread) ∧
    ((state.currentTaskId thread).isSome ∨
      (state.polling thread = none ∧ state.lastPolled thread = none ∧
        (state.probeThreadId thread = none → state.nextImplicitThreadId < implicit)))

/-- The tracked call that a step reports on, and the thread that does. -/
def trackedReport : Step → Option (Thread × ℕ)
  | .trackedEmit thread call .. => some (thread, call)
  | _ => none

def joins : Step → Option Thread
  | .joinRequested thread _ | .joinResolved thread _ => some thread
  | _ => none

/-- What each step of the body has to respect: who reads an id may speak, a tracked call is reported
by the context that made it, and joins are reported by tasks of the cast. -/
def SpeaksApart (cast : Context → Prop) (implicit : UInt64) (state : State) (step : Step) : Prop :=
  (∀ thread ∈ reads state step, MaySpeak cast implicit state thread) ∧
    (∀ report ∈ trackedReport step,
      state.owner (.tracked report.2) = some (state.context report.1)) ∧
    ∀ thread ∈ joins step, (state.currentTaskId thread).isSome → cast (state.context thread)

instance (cast : Context → Prop) [DecidablePred cast] (implicit : UInt64) (state : State) (step : Step) :
    Decidable (SpeaksApart cast implicit state step) := by
  unfold SpeaksApart MaySpeak
  infer_instance

/-- The id by which a context goes. -/
def Names (state : State) (ids : Thread → Option UInt64) : Context → UInt64 → Prop
  | .thread thread, id => ids thread = some id
  | .task task, id => state.taskId task = some id ∧ (state.tasks task).isSome

/-- The state of a run, with the id of every thread that has had one of its own. -/
structure Identified (given : Thread → Option UInt64) (cast : Context → Prop) (implicit : UInt64)
    (state : State) (ids : Thread → Option UInt64) : Prop where
  counted : state.nextImplicitThreadId ≤ implicit
  explicit : ∀ thread id, given thread = some id → ids thread = some id
  own : ∀ thread, state.lastPolled thread = none → state.probeThreadId thread = ids thread
  taken : ∀ thread id, given thread = none → ids thread = some id → id < state.nextImplicitThreadId
  apart : ∀ thread other id, given thread = none → given other = none →
    ids thread = some id → ids other = some id → thread = other
  listed : ∀ index, (state.tasks (.registered index)).isSome → index < state.registered
  limited : state.registered ≤ maxModelTasks
  current : ∀ thread id, state.currentTaskId thread = some id → state.probeThreadId thread = some id ∧
    ∃ poll value, state.polling thread = some poll ∧ state.tasks poll.task = some value ∧
      observedId state poll.task value = some id
  tracked : ∀ call id, state.trackedIds call = some id → ∃ context,
    state.owner (.tracked call) = some context ∧ cast context ∧ Names state ids context id
  spoken : ∀ entry ∈ captured state, ∀ id, entry.event.threadId = some id →
    cast entry.context ∧ Names state ids entry.context id

section

variable {given : Thread → Option UInt64} {cast : Context → Prop} {implicit : UInt64}

def Identifiable (given : Thread → Option UInt64) (cast : Context → Prop) (implicit : UInt64)
    (state : State) : Prop := ∃ ids, Identified given cast implicit state ids

variable {state next : State} {thread : Thread} {ids ids' : Thread → Option UInt64}

/-- Contexts keep their ids when tasks and threads do. -/
theorem Names.mono {context : Context} {id : UInt64} (named : Names state ids context id)
    (taskIds : ∀ task id, state.taskId task = some id → next.taskId task = some id)
    (tasks : ∀ task, (state.tasks task).isSome → (next.tasks task).isSome)
    (threads : ∀ thread id, ids thread = some id → ids' thread = some id) :
    Names next ids' context id := by
  cases context with
  | thread thread => exact threads thread id named
  | task task => exact ⟨taskIds task id named.1, tasks task named.2⟩

theorem observedId_taskId {task : TaskRef} {value : Task} {id : UInt64}
    (watched : observedId state task value = some id) : state.taskId task = some id := by
  unfold observedId at watched
  split at watched
  · exact watched
  · cases watched

/-- In an observed poll the context is the task, and its id is the current one. -/
theorem names_current {id : UInt64} (holds : Identified given cast implicit state ids)
    (polled : state.currentTaskId thread = some id) : Names state ids (state.context thread) id := by
  obtain ⟨-, poll, value, running, present, watched⟩ := holds.current thread id polled
  unfold State.context
  rw [running]
  exact ⟨observedId_taskId watched, by rw [present]; rfl⟩

theorem identified_emit {acquisition : Option Acquisition} {event : ProbeEvent}
    (holds : Identified given cast implicit state ids)
    (new : ∀ id, event.threadId = some id → cast (state.context thread) ∧
      Names state ids (state.context thread) id) :
    Identified given cast implicit (state.emit thread acquisition event) ids := by
  have spoken : ∀ entry ∈ captured (state.emit thread acquisition event), ∀ id,
      entry.event.threadId = some id → cast entry.context ∧ Names state ids entry.context id := by
    intro entry member id carries
    rcases mem_captured_emit member with old | rfl
    · exact holds.spoken entry old id carries
    · exact new id carries
  rw [emit_eq] at spoken ⊢
  refine { holds with tracked := ?_, spoken := ?_ }
  · intro call id kept
    obtain ⟨context, owned, casted, named⟩ := holds.tracked call id kept
    exact ⟨context, owned, casted, named.mono (fun _ _ h => h) (fun _ h => h) (fun _ _ h => h)⟩
  · intro entry member id carries
    obtain ⟨casted, named⟩ := spoken entry member id carries
    exact ⟨casted, named.mono (fun _ _ h => h) (fun _ h => h) (fun _ _ h => h)⟩

theorem identified_silent {acquisition : Option Acquisition} {event : ProbeEvent}
    (holds : Identified given cast implicit state ids) (silent : event.threadId = none) :
    Identified given cast implicit (state.emit thread acquisition event) ids :=
  identified_emit holds fun id carries => by rw [silent] at carries; cases carries

/-- Below the bound the implicit counter can be advanced. -/
theorem implicit_succ {counter : UInt64} (below : counter < implicit) :
    counter < counter + 1 ∧ counter + 1 ≤ implicit := by
  rw [UInt64.lt_iff_toNat_lt] at below
  rw [UInt64.lt_iff_toNat_lt, UInt64.le_iff_toNat_le, UInt64.toNat_add, UInt64.toNat_one]
  have := implicit.toNat_lt
  omega

/-- Giving an id to a thread without one keeps those of the others. -/
theorem names_extended {other : Thread} {id fresh : UInt64} (unnamed : ids thread = none)
    (named : ids other = some id) : Function.update ids thread (some fresh) other = some id := by
  have different : other ≠ thread := by
    rintro rfl
    rw [unnamed] at named
    cases named
  exact (Function.update_of_ne different _ _).trans named

/-- The next implicit id is nobody's, so the threads with implicit ids stay apart. -/
theorem apart_extended (holds : Identified given cast implicit state ids) {one two : Thread} {id : UInt64}
    (unsetOne : given one = none) (unsetTwo : given two = none)
    (namedOne : Function.update ids thread (some state.nextImplicitThreadId) one = some id)
    (namedTwo : Function.update ids thread (some state.nextImplicitThreadId) two = some id) : one = two := by
  have fresh : ∀ other, given other = none → ids other ≠ some state.nextImplicitThreadId := by
    intro other unset named
    exact UInt64.lt_irrefl _ (holds.taken other _ unset named)
  by_cases sameOne : one = thread <;> by_cases sameTwo : two = thread
  · rw [sameOne, sameTwo]
  · rw [sameOne, Function.update_self] at namedOne
    rw [Function.update_of_ne sameTwo, ← namedOne] at namedTwo
    exact absurd namedTwo (fresh two unsetTwo)
  · rw [sameTwo, Function.update_self] at namedTwo
    rw [Function.update_of_ne sameOne, ← namedTwo] at namedOne
    exact absurd namedOne (fresh one unsetOne)
  · rw [Function.update_of_ne sameOne] at namedOne
    rw [Function.update_of_ne sameTwo] at namedTwo
    exact holds.apart one two id unsetOne unsetTwo namedOne namedTwo

/-- A thread without an id takes the next implicit one, which nobody else has. -/
theorem identified_implicit (holds : Identified given cast implicit state ids)
    (unpolled : state.lastPolled thread = none) (absent : state.probeThreadId thread = none)
    (below : state.nextImplicitThreadId < implicit) :
    Identified given cast implicit (state.currentThreadId thread).2
      (Function.update ids thread (some state.nextImplicitThreadId)) := by
  obtain ⟨read, counter⟩ := currentThreadId_of_none absent
  obtain ⟨grows, bounded⟩ := implicit_succ below
  have unnamed : ids thread = none := (holds.own thread unpolled).symm.trans absent
  rw [currentThreadId_eq, read, counter]
  refine { holds with
    counted := bounded, explicit := ?_, own := ?_, taken := ?_, apart := ?_, current := ?_,
    tracked := ?_, spoken := ?_ }
  · intro other id set
    exact names_extended unnamed (holds.explicit other id set)
  · intro other quiet
    change Function.update state.probeThreadId thread _ other = Function.update ids thread _ other
    by_cases same : other = thread
    · subst same
      rw [Function.update_self, Function.update_self]
    · rw [Function.update_of_ne same, Function.update_of_ne same]
      exact holds.own other quiet
  · intro other id unset' named
    by_cases same : other = thread
    · subst same
      rw [Function.update_self] at named
      obtain rfl := Option.some.inj named
      exact grows
    · rw [Function.update_of_ne same] at named
      exact UInt64.lt_trans (holds.taken other id unset' named) grows
  · intro one two id unsetOne unsetTwo namedOne namedTwo
    exact apart_extended holds unsetOne unsetTwo namedOne namedTwo
  · intro other id polled
    obtain ⟨carries, watched⟩ := holds.current other id polled
    exact ⟨names_extended absent carries, watched⟩
  · intro call id kept
    obtain ⟨context, owned, casted, named⟩ := holds.tracked call id kept
    exact ⟨context, owned, casted,
      named.mono (fun _ _ h => h) (fun _ h => h) (fun _ _ h => names_extended unnamed h)⟩
  · intro entry member id carries
    obtain ⟨casted, named⟩ := holds.spoken entry member id carries
    exact ⟨casted, named.mono (fun _ _ h => h) (fun _ h => h) (fun _ _ h => names_extended unnamed h)⟩

/-- Reading the thread id gives the context its id. -/
theorem identified_read (holds : Identified given cast implicit state ids)
    (may : MaySpeak cast implicit state thread) :
    ∃ ids', Identified given cast implicit (state.currentThreadId thread).2 ids' ∧
      Names (state.currentThreadId thread).2 ids' (state.context thread) (state.currentThreadId thread).1 := by
  cases present : state.probeThreadId thread with
  | some id =>
    rw [currentThreadId_of_some present]
    refine ⟨ids, holds, ?_⟩
    rcases may.2 with polled | ⟨idle, unpolled, -⟩
    · obtain ⟨current, polled⟩ := Option.isSome_iff_exists.mp polled
      have carries := (holds.current thread current polled).1
      rw [present] at carries
      obtain rfl := Option.some.inj carries
      exact names_current holds polled
    · unfold State.context
      rw [idle]
      exact (holds.own thread unpolled).symm.trans present
  | none =>
    rcases may.2 with polled | ⟨idle, unpolled, room⟩
    · obtain ⟨current, polled⟩ := Option.isSome_iff_exists.mp polled
      have carries := (holds.current thread current polled).1
      rw [present] at carries
      cases carries
    · refine ⟨_, identified_implicit holds unpolled present (room present), ?_⟩
      unfold State.context
      rw [idle, (currentThreadId_of_none present).1]
      exact Function.update_self ..

theorem identifiable_emitAs {acquisition : Option Acquisition} {event : UInt64 → ProbeEvent}
    (holds : Identified given cast implicit state ids) (may : MaySpeak cast implicit state thread)
    (carries : ∀ id, (event id).threadId = some id) :
    Identifiable given cast implicit (state.emitAs thread acquisition event) := by
  obtain ⟨ids', read, named⟩ := identified_read holds may
  have same : (state.currentThreadId thread).2.context thread = state.context thread := by
    rw [currentThreadId_eq]
    rfl
  refine ⟨ids', identified_emit read ?_⟩
  intro id spoken
  rw [carries] at spoken
  obtain rfl := Option.some.inj spoken
  rw [same]
  exact ⟨may.1, named⟩

/-- A state that differs in nothing the invariant reads, its record of acquisitions apart. -/
theorem identified_quiet (holds : Identified given cast implicit state ids)
    (quiet : next = { state with
      locks := next.locks, asyncs := next.asyncs, waiters := next.waiters, guards := next.guards,
      createdReported := next.createdReported, owner := next.owner, acquiredUnder := next.acquiredUnder })
    (owners : ∀ call context, state.owner (.tracked call) = some context →
      next.owner (.tracked call) = some context) : Identified given cast implicit next ids := by
  rw [quiet]
  refine { holds with tracked := ?_, spoken := ?_ }
  · intro call id kept
    obtain ⟨context, owned, casted, named⟩ := holds.tracked call id kept
    exact ⟨context, owners call context owned, casted,
      named.mono (fun _ _ h => h) (fun _ h => h) (fun _ _ h => h)⟩
  · intro entry member id carries
    obtain ⟨casted, named⟩ := holds.spoken entry member id carries
    exact ⟨casted, named.mono (fun _ _ h => h) (fun _ h => h) (fun _ _ h => h)⟩

theorem MaySpeak.of_quiet (may : MaySpeak cast implicit state thread)
    (quiet : next = { state with
      locks := next.locks, asyncs := next.asyncs, waiters := next.waiters, guards := next.guards,
      createdReported := next.createdReported, owner := next.owner, acquiredUnder := next.acquiredUnder }) :
    MaySpeak cast implicit next thread := by
  rw [quiet]
  exact may

theorem identified_begin (holds : Identified given cast implicit state ids) (acquisition : Acquisition) :
    Identified given cast implicit (state.begin thread acquisition) ids :=
  identified_quiet holds (by rw [begin_eq]) fun _ _ owned => begin_owner owned

theorem maySpeak_begin (may : MaySpeak cast implicit state thread) (acquisition : Acquisition) :
    MaySpeak cast implicit (state.begin thread acquisition) thread :=
  may.of_quiet (by rw [begin_eq])

theorem identified_beginReport {report : AsyncReport Handle ℕ}
    (holds : Identified given cast implicit state ids) :
    Identified given cast implicit (state.beginReport thread report) ids := by
  unfold State.beginReport
  split
  · exact identified_begin holds _
  · exact holds

theorem maySpeak_beginReport {report : AsyncReport Handle ℕ} (may : MaySpeak cast implicit state thread) :
    MaySpeak cast implicit (state.beginReport thread report) thread := by
  unfold State.beginReport
  split
  · exact maySpeak_begin may _
  · exact may

/-- A thread that has spoken may speak again: now it has its id. -/
theorem maySpeak_emitAs {acquisition : Option Acquisition} {event : UInt64 → ProbeEvent}
    (may : MaySpeak cast implicit state thread) :
    MaySpeak cast implicit (state.emitAs thread acquisition event) thread := by
  rw [emitAs_eq]
  refine ⟨may.1, may.2.imp_right ?_⟩
  rintro ⟨idle, unpolled, -⟩
  refine ⟨idle, unpolled, fun absent => ?_⟩
  change Function.update state.probeThreadId thread _ thread = none at absent
  rw [Function.update_self] at absent
  cases absent

theorem identifiable_lock {lock : Handle} {guard : ℕ} (holds : Identified given cast implicit state ids)
    (admitted : SpeaksApart cast implicit state (.lock thread lock guard))
    (stepped : step state (.lock thread lock guard) = some next) :
    Identifiable given cast implicit next := by
  simp only [step] at stepped
  split at stepped
  · have held : Identified given cast implicit { state.begin thread (.guard guard) with
        guards := Function.update state.guards guard (some lock) } ids :=
      identified_quiet (identified_begin holds (.guard guard)) rfl fun _ _ owned => owned
    obtain rfl := Option.some.inj stepped
    split
    · next hooked =>
      have may := admitted.1 thread (if_pos hooked)
      exact identifiable_emitAs held ((maySpeak_begin may (.guard guard)).of_quiet rfl) fun _ => rfl
    · exact ⟨ids, held⟩
  · cases stepped

theorem identifiable_unlock {guard : ℕ} {panicking : Bool}
    (holds : Identified given cast implicit state ids)
    (admitted : SpeaksApart cast implicit state (.unlock thread guard panicking))
    (stepped : step state (.unlock thread guard panicking) = some next) :
    Identifiable given cast implicit next := by
  simp only [step] at stepped
  split at stepped
  · split at stepped
    · have freed : Identified given cast implicit
          { state with guards := Function.update state.guards guard none } ids :=
        identified_quiet holds rfl fun _ _ owned => owned
      obtain rfl := Option.some.inj stepped
      split
      · next hooked =>
        have may := admitted.1 thread (if_pos hooked)
        exact identifiable_emitAs freed (may.of_quiet rfl) fun _ => rfl
      · exact ⟨ids, freed⟩
    · cases stepped
  · cases stepped

theorem identifiable_asyncReport {report : AsyncReport Handle ℕ}
    (holds : Identified given cast implicit state ids)
    (admitted : SpeaksApart cast implicit state (.asyncReport thread report))
    (stepped : step state (.asyncReport thread report) = some next) :
    Identifiable given cast implicit next := by
  simp only [step] at stepped
  split at stepped
  · obtain rfl := Option.some.inj stepped
    split
    · next hooked =>
      have may := admitted.1 thread (if_pos hooked)
      exact identifiable_emitAs (identified_beginReport holds) (maySpeak_beginReport may)
        fun id => asyncReport_threadId _ id
    · exact ⟨ids, identified_beginReport holds⟩
  · cases stepped

theorem identifiable_semaphoreReport {permits : ℕ} {report : AsyncReport Handle ℕ}
    (holds : Identified given cast implicit state ids)
    (admitted : SpeaksApart cast implicit state (.semaphoreReport thread permits report))
    (stepped : step state (.semaphoreReport thread permits report) = some next) :
    Identifiable given cast implicit next := by
  simp only [step] at stepped
  split at stepped
  · obtain rfl := Option.some.inj stepped
    split
    · next hooked =>
      have begun : Identified given cast implicit (state.beginReport thread report) ids :=
        identified_beginReport holds
      have may : MaySpeak cast implicit (state.beginReport thread report) thread :=
        maySpeak_beginReport (admitted.1 thread (if_pos hooked))
      unfold State.reportCreated
      split
      · exact identifiable_emitAs begun may fun id => asyncReport_threadId _ id
      · have marked : Identified given cast implicit { state.beginReport thread report with
            createdReported := Function.update (state.beginReport thread report).createdReported
              report.resource true } ids := identified_quiet begun rfl fun _ _ owned => owned
        obtain ⟨ids', created⟩ := identifiable_emitAs marked (may.of_quiet rfl)
          (fun id => asyncReport_threadId ((AsyncReport.semaphoreCreated report.resource permits).map
            _ _) id)
        exact identifiable_emitAs created (maySpeak_emitAs (may.of_quiet rfl))
          fun id => asyncReport_threadId _ id
    · exact ⟨ids, identified_beginReport holds⟩
  · cases stepped

theorem identifiable_trackedCall {call : ℕ} (holds : Identified given cast implicit state ids)
    (admitted : SpeaksApart cast implicit state (.trackedCall thread call))
    (stepped : step state (.trackedCall thread call) = some next) :
    Identifiable given cast implicit next := by
  simp only [step] at stepped
  split at stepped
  · next fresh unowned =>
    have may := admitted.1 thread rfl
    obtain ⟨ids', read, named⟩ := identified_read (identified_begin holds (.tracked call))
      (maySpeak_begin may (.tracked call))
    have owned : ((state.begin thread (.tracked call)).currentThreadId thread).2.owner (.tracked call) =
        some (state.context thread) := by
      rw [currentThreadId_eq, begin_of_none unowned]
      exact Function.update_self ..
    have same : (state.begin thread (.tracked call)).context thread = state.context thread := by
      rw [begin_eq]
      rfl
    rw [same] at named
    obtain rfl := Option.some.inj stepped
    refine ⟨ids', { read with tracked := ?_, spoken := ?_ }⟩
    · intro other id kept
      change Function.update ((state.begin thread (.tracked call)).currentThreadId thread).2.trackedIds
        call (some ((state.begin thread (.tracked call)).currentThreadId thread).1) other = some id at kept
      by_cases equal : other = call
      · subst equal
        rw [Function.update_self] at kept
        obtain rfl := Option.some.inj kept
        exact ⟨state.context thread, owned, may.1,
          named.mono (fun _ _ h => h) (fun _ h => h) (fun _ _ h => h)⟩
      · rw [Function.update_of_ne equal] at kept
        obtain ⟨context, owned, casted, named⟩ := read.tracked other id kept
        exact ⟨context, owned, casted, named.mono (fun _ _ h => h) (fun _ h => h) (fun _ _ h => h)⟩
    · intro entry member id carries
      obtain ⟨casted, named⟩ := read.spoken entry member id carries
      exact ⟨casted, named.mono (fun _ _ h => h) (fun _ h => h) (fun _ _ h => h)⟩
  · cases stepped

theorem identifiable_trackedEmit {call : ℕ} {kind : TrackedKind} {resource : String}
    (holds : Identified given cast implicit state ids)
    (admitted : SpeaksApart cast implicit state (.trackedEmit thread call kind resource))
    (stepped : step state (.trackedEmit thread call kind resource) = some next) :
    Identifiable given cast implicit next := by
  obtain ⟨id, kept, rfl⟩ := Option.map_eq_some_iff.mp stepped
  obtain ⟨context, owned, casted, named⟩ := holds.tracked call id kept
  have here : context = state.context thread := Option.some.inj (owned.symm.trans (admitted.2.1 (thread, call) rfl))
  refine ⟨ids, identified_emit holds ?_⟩
  intro spoken carries
  rw [tracked_threadId] at carries
  obtain rfl := Option.some.inj carries
  rw [← here]
  exact ⟨casted, named⟩

/-- Replacing a task's record keeps the invariant while the wrapper stays and the list is kept. -/
theorem identified_setTask {task : TaskRef} {value : Task} {count : ℕ}
    (holds : Identified given cast implicit state ids)
    (wrapped : ∀ old, state.tasks task = some old → value.observed = old.observed)
    (listed : ∀ index, task = .registered index → index < count)
    (grows : state.registered ≤ count) (limited : count ≤ maxModelTasks) :
    Identified given cast implicit { state.setTask task value with registered := count } ids := by
  have present : ∀ other, (state.tasks other).isSome →
      (Function.update state.tasks task (some value) other).isSome := by
    intro other known
    by_cases same : other = task
    · rw [same, Function.update_self]
      rfl
    · rw [Function.update_of_ne same]
      exact known
  refine { holds with listed := ?_, limited := limited, current := ?_, tracked := ?_, spoken := ?_ }
  · intro index known
    change (Function.update state.tasks task (some value) (.registered index)).isSome at known
    by_cases same : TaskRef.registered index = task
    · exact listed index same.symm
    · rw [Function.update_of_ne same] at known
      exact Nat.lt_of_lt_of_le (holds.listed index known) grows
  · intro other id polled
    obtain ⟨carries, poll, old, running, known, watched⟩ := holds.current other id polled
    refine ⟨carries, poll, ?_⟩
    change ∃ value', _ ∧ Function.update state.tasks task (some value) poll.task = some value' ∧ _
    by_cases same : poll.task = task
    · refine ⟨value, running, by rw [same, Function.update_self], ?_⟩
      unfold observedId at watched ⊢
      rw [wrapped old (same ▸ known)]
      exact watched
    · exact ⟨old, running, (Function.update_of_ne same _ _).trans known, watched⟩
  · intro call id kept
    obtain ⟨context, owned, casted, named⟩ := holds.tracked call id kept
    exact ⟨context, owned, casted, named.mono (fun _ _ h => h) present (fun _ _ h => h)⟩
  · intro entry member id carries
    obtain ⟨casted, named⟩ := holds.spoken entry member id carries
    exact ⟨casted, named.mono (fun _ _ h => h) present (fun _ _ h => h)⟩

theorem identifiable_register (holds : Identified given cast implicit state ids)
    (stepped : step state (.register thread) = some next) : Identifiable given cast implicit next := by
  simp only [step] at stepped
  split at stepped
  · next room =>
    have pushed : Identified given cast implicit
        { state.setTask (.registered state.registered) ⟨true, 0, false, false⟩ with
          registered := state.registered + 1 } ids := by
      refine identified_setTask holds ?_ ?_ (Nat.le_succ _) room
      · intro old known
        -- the position is new
        have listed := holds.listed state.registered (by rw [known]; rfl)
        exact absurd listed (Nat.lt_irrefl _)
      · intro index same
        obtain rfl := TaskRef.registered.inj same
        exact Nat.lt_succ_self _
    obtain rfl := Option.some.inj stepped
    split
    · exact ⟨ids, identified_silent pushed rfl⟩
    · exact ⟨ids, pushed⟩
  · cases stepped

/-- Giving a new dynamic task its id keeps every other task's. -/
theorem identified_dynamicTasks {task : ℕ} {dynamicTasks : Allocator ℕ}
    (holds : Identified given cast implicit state ids)
    (ensured : state.dynamicTasks.ensure task = some dynamicTasks) :
    Identified given cast implicit { state with dynamicTasks } ids := by
  have grows : ∀ other id, state.taskId other = some id →
      ({ state with dynamicTasks } : State).taskId other = some id := by
    intro other id known
    cases other with
    | registered index => exact known
    | dynamic index => exact Allocator.ensure_table ensured known
  refine { holds with current := ?_, tracked := ?_, spoken := ?_ }
  · intro other id polled
    obtain ⟨carries, poll, value, running, known, watched⟩ := holds.current other id polled
    refine ⟨carries, poll, value, running, known, ?_⟩
    unfold observedId at watched ⊢
    split at watched
    · next hooked =>
      rw [if_pos hooked]
      exact grows poll.task id watched
    · cases watched
  · intro call id kept
    obtain ⟨context, owned, casted, named⟩ := holds.tracked call id kept
    exact ⟨context, owned, casted, named.mono grows (fun _ h => h) (fun _ _ h => h)⟩
  · intro entry member id carries
    obtain ⟨casted, named⟩ := holds.spoken entry member id carries
    exact ⟨casted, named.mono grows (fun _ h => h) (fun _ _ h => h)⟩

theorem identifiable_spawnTask {task : ℕ} (holds : Identified given cast implicit state ids)
    (stepped : step state (.spawnTask thread task) = some next) :
    Identifiable given cast implicit next := by
  simp only [step] at stepped
  split at stepped
  · cases stepped
  · next unused =>
    have fresh : ∀ {state' : State} {value : Task}, state'.tasks = state.tasks →
        ∀ old, state'.tasks (.dynamic task) = some old → value.observed = old.observed := by
      intro state' value same old known
      rw [same, unused] at known
      cases known
    split at stepped
    · obtain ⟨dynamicTasks, ensured, allocated⟩ := Option.bind_eq_some_iff.mp stepped
      obtain ⟨id, -, rfl⟩ := Option.map_eq_some_iff.mp allocated
      have named := identified_dynamicTasks holds ensured
      exact ⟨ids, identified_silent (identified_setTask named (fresh rfl)
        (fun _ same => by cases same) (Nat.le_refl _) named.limited) rfl⟩
    · obtain rfl := Option.some.inj stepped
      exact ⟨ids, identified_setTask holds (fresh rfl) (fun _ same => by cases same) (Nat.le_refl _)
        holds.limited⟩

theorem identifiable_pollStarted {task : TaskRef} (holds : Identified given cast implicit state ids)
    (stepped : step state (.pollStarted thread task) = some next) :
    Identifiable given cast implicit next := by
  simp only [step] at stepped
  split at stepped
  · next value idle present =>
    have untasked : state.currentTaskId thread = none := by
      cases polled : state.currentTaskId thread with
      | none => rfl
      | some id =>
        obtain ⟨-, poll, -, running, -⟩ := holds.current thread id polled
        rw [idle] at running
        cases running
    have set : Identified given cast implicit
        (state.setTask task { value with attempt := saturatingAdd value.attempt 1 }) ids := by
      refine identified_setTask holds ?_ ?_ (Nat.le_refl _) holds.limited
      · intro old known
        obtain rfl := Option.some.inj (present.symm.trans known)
        rfl
      · rintro index rfl
        exact holds.listed index (by rw [present]; rfl)
    -- the thread's own id is no longer read off it
    have own : ∀ other, Function.update state.lastPolled thread (some task) other = none →
        other ≠ thread ∧ state.lastPolled other = none := by
      intro other quiet
      have different : other ≠ thread := by
        rintro rfl
        rw [Function.update_self] at quiet
        cases quiet
      rw [Function.update_of_ne different] at quiet
      exact ⟨different, quiet⟩
    split at stepped
    · cases stepped
    · split at stepped
      · next id watched =>
        obtain rfl := Option.some.inj stepped
        refine ⟨ids, identified_silent ?_ rfl⟩
        refine { set with own := ?_, current := ?_, tracked := ?_, spoken := ?_ }
        · intro other quiet
          obtain ⟨different, unpolled⟩ := own other quiet
          exact (Function.update_of_ne different _ _).trans (holds.own other unpolled)
        · intro other current polled
          change Function.update state.currentTaskId thread (some id) other = some current at polled
          by_cases same : other = thread
          · subst same
            rw [Function.update_self] at polled
            obtain rfl := Option.some.inj polled
            exact ⟨Function.update_self .., ⟨task, value.attempt⟩,
              { value with attempt := saturatingAdd value.attempt 1 }, Function.update_self ..,
              Function.update_self .., watched⟩
          · rw [Function.update_of_ne same] at polled
            obtain ⟨carries, poll, value', running, known, seen⟩ := set.current other current polled
            exact ⟨(Function.update_of_ne same _ _).trans carries, poll, value',
              (Function.update_of_ne same _ _).trans running, known, seen⟩
        · intro call id' kept
          obtain ⟨context, owned, casted, named⟩ := set.tracked call id' kept
          exact ⟨context, owned, casted, named.mono (fun _ _ h => h) (fun _ h => h) (fun _ _ h => h)⟩
        · intro entry member id' carries
          obtain ⟨casted, named⟩ := set.spoken entry member id' carries
          exact ⟨casted, named.mono (fun _ _ h => h) (fun _ h => h) (fun _ _ h => h)⟩
      · obtain rfl := Option.some.inj stepped
        refine ⟨ids, { set with own := ?_, current := ?_, tracked := ?_, spoken := ?_ }⟩
        · intro other quiet
          exact holds.own other (own other quiet).2
        · intro other current polled
          have different : other ≠ thread := by
            rintro rfl
            exact absurd (untasked.symm.trans polled) (by simp)
          obtain ⟨carries, poll, value', running, known, seen⟩ := set.current other current polled
          exact ⟨carries, poll, value', (Function.update_of_ne different _ _).trans running, known, seen⟩
        · intro call id' kept
          obtain ⟨context, owned, casted, named⟩ := set.tracked call id' kept
          exact ⟨context, owned, casted, named.mono (fun _ _ h => h) (fun _ h => h) (fun _ _ h => h)⟩
        · intro entry member id' carries
          obtain ⟨casted, named⟩ := set.spoken entry member id' carries
          exact ⟨casted, named.mono (fun _ _ h => h) (fun _ h => h) (fun _ _ h => h)⟩
  · cases stepped

theorem identified_clearCurrent (holds : Identified given cast implicit state ids) :
    Identified given cast implicit
      { state with currentTaskId := Function.update state.currentTaskId thread none } ids := by
  refine { holds with current := ?_, tracked := ?_, spoken := ?_ }
  · intro other id polled
    refine holds.current other id ?_
    change Function.update state.currentTaskId thread none other = some id at polled
    by_cases same : other = thread
    · subst same
      rw [Function.update_self] at polled
      cases polled
    · rw [Function.update_of_ne same] at polled
      exact polled
  · intro call id kept
    obtain ⟨context, owned, casted, named⟩ := holds.tracked call id kept
    exact ⟨context, owned, casted, named.mono (fun _ _ h => h) (fun _ h => h) (fun _ _ h => h)⟩
  · intro entry member id carries
    obtain ⟨casted, named⟩ := holds.spoken entry member id carries
    exact ⟨casted, named.mono (fun _ _ h => h) (fun _ h => h) (fun _ _ h => h)⟩

theorem identified_pollEndedHooks {id attempt : UInt64} {outcome : TaskPollOutcome}
    (holds : Identified given cast implicit state ids) :
    Identified given cast implicit (state.pollEndedHooks thread id attempt outcome) ids := by
  cases outcome with
  | pending => exact identified_clearCurrent (identified_silent holds rfl)
  | ready =>
    exact identified_silent (identified_clearCurrent (identified_clearCurrent
      (identified_silent holds rfl))) rfl
  | panicked =>
    exact identified_silent (identified_clearCurrent (identified_clearCurrent holds)) rfl

theorem pollEndedHooks_current (state : State) (thread : Thread) (id attempt : UInt64)
    (outcome : TaskPollOutcome) :
    (state.pollEndedHooks thread id attempt outcome).currentTaskId thread = none := by
  cases outcome with
  | pending => exact Function.update_self ..
  | ready | panicked =>
    change (State.taskCompletedHook _ thread id).currentTaskId thread = none
    unfold State.taskCompletedHook
    rw [emit_eq]
    exact Function.update_self ..

theorem identified_endPoll (holds : Identified given cast implicit state ids)
    (untasked : state.currentTaskId thread = none) :
    Identified given cast implicit
      { state with polling := Function.update state.polling thread none } ids := by
  refine { holds with current := ?_, tracked := ?_, spoken := ?_ }
  · intro other id polled
    have different : other ≠ thread := by
      rintro rfl
      exact absurd (untasked.symm.trans polled) (by simp)
    obtain ⟨carries, poll, value, running, known, seen⟩ := holds.current other id polled
    exact ⟨carries, poll, value, (Function.update_of_ne different _ _).trans running, known, seen⟩
  · intro call id kept
    obtain ⟨context, owned, casted, named⟩ := holds.tracked call id kept
    exact ⟨context, owned, casted, named.mono (fun _ _ h => h) (fun _ h => h) (fun _ _ h => h)⟩
  · intro entry member id carries
    obtain ⟨casted, named⟩ := holds.spoken entry member id carries
    exact ⟨casted, named.mono (fun _ _ h => h) (fun _ h => h) (fun _ _ h => h)⟩

theorem identifiable_pollCompleted {outcome : TaskPollOutcome}
    (holds : Identified given cast implicit state ids)
    (stepped : step state (.pollCompleted thread outcome) = some next) :
    Identifiable given cast implicit next := by
  simp only [step] at stepped
  split at stepped
  · next poll running =>
    split at stepped
    · next value present =>
      obtain rfl := Option.some.inj stepped
      have finish : ∀ {reported : State}, Identified given cast implicit reported ids →
          reported.tasks = state.tasks → reported.currentTaskId thread = none →
          Identifiable given cast implicit
            { reported.setTask poll.task { value with finished := outcome != .pending } with
              polling := Function.update reported.polling thread none } := by
        intro reported holds' same untasked
        refine ⟨ids, identified_endPoll (identified_setTask holds' ?_ ?_ (Nat.le_refl _) holds'.limited)
          untasked⟩
        · intro old known
          rw [same] at known
          obtain rfl := Option.some.inj (present.symm.trans known)
          rfl
        · intro index listed
          exact holds'.listed index (by rw [same, ← listed, present]; rfl)
      split
      · next id watched =>
        refine finish (identified_pollEndedHooks holds) ?_ (pollEndedHooks_current ..)
        rw [pollEndedHooks_eq]
      · next unwatched =>
        refine finish holds rfl ?_
        cases polled : state.currentTaskId thread with
        | none => rfl
        | some id =>
          obtain ⟨-, poll', value', running', present', watched⟩ := holds.current thread id polled
          obtain rfl := Option.some.inj (running.symm.trans running')
          obtain rfl := Option.some.inj (present.symm.trans present')
          rw [unwatched] at watched
          cases watched
    · cases stepped
  · cases stepped

theorem identifiable_join {task : TaskRef} {event : UInt64 → UInt64 → ProbeEvent}
    (holds : Identified given cast implicit state ids)
    (carries : ∀ current joined, (event current joined).threadId = some current)
    (admitted : (state.currentTaskId thread).isSome → cast (state.context thread))
    (joined : join state thread task event = some next) : Identifiable given cast implicit next := by
  unfold join at joined
  split at joined
  · split at joined
    · obtain rfl := Option.some.inj joined
      unfold State.joinHook
      split
      · next current polled =>
        refine ⟨ids, identified_emit holds ?_⟩
        intro id spoken
        rw [carries] at spoken
        obtain rfl := Option.some.inj spoken
        exact ⟨admitted (by rw [polled]; rfl), names_current holds polled⟩
      · exact ⟨ids, holds⟩
    · obtain rfl := Option.some.inj joined
      exact ⟨ids, holds⟩
  · cases joined

/-- One boundary of a body keeps the contexts apart when it is taken as the cast allows. -/
theorem identifiable_step {taken : Step} (admitted : SpeaksApart cast implicit state taken)
    (holds : Identifiable given cast implicit state) (stepped : step state taken = some next) :
    Identifiable given cast implicit next := by
  obtain ⟨ids, holds⟩ := holds
  cases taken with
  | newLock lock =>
    obtain ⟨locks, -, rfl⟩ := Option.map_eq_some_iff.mp stepped
    exact ⟨ids, identified_quiet holds rfl fun _ _ owned => owned⟩
  | newAsync resource =>
    obtain ⟨asyncs, -, rfl⟩ := Option.map_eq_some_iff.mp stepped
    exact ⟨ids, identified_quiet holds rfl fun _ _ owned => owned⟩
  | newWaiter waiter =>
    obtain ⟨waiters, -, rfl⟩ := Option.map_eq_some_iff.mp stepped
    exact ⟨ids, identified_quiet holds rfl fun _ _ owned => owned⟩
  | lock thread lock guard => exact identifiable_lock holds admitted stepped
  | unlock thread guard panicking => exact identifiable_unlock holds admitted stepped
  | asyncReport thread report => exact identifiable_asyncReport holds admitted stepped
  | semaphoreReport thread permits report => exact identifiable_semaphoreReport holds admitted stepped
  | trackedCall thread call => exact identifiable_trackedCall holds admitted stepped
  | trackedEmit thread call kind resource => exact identifiable_trackedEmit holds admitted stepped
  | register thread => exact identifiable_register holds stepped
  | spawnTask thread task => exact identifiable_spawnTask holds stepped
  | pollStarted thread task => exact identifiable_pollStarted holds stepped
  | pollCompleted thread outcome => exact identifiable_pollCompleted holds stepped
  | dropTask task =>
    obtain ⟨value, present, rfl⟩ := Option.map_eq_some_iff.mp stepped
    refine ⟨ids, identified_setTask holds ?_ ?_ (Nat.le_refl _) holds.limited⟩
    · intro old known
      obtain rfl := Option.some.inj (present.symm.trans known)
      rfl
    · rintro index rfl
      exact holds.listed index (by rw [present]; rfl)
  | joinRequested thread task => exact identifiable_join holds (fun _ _ => rfl) (admitted.2.2 thread rfl) stepped
  | joinResolved thread task => exact identifiable_join holds (fun _ _ => rfl) (admitted.2.2 thread rfl) stepped

/-- A task in the cast has an id that no thread in the cast has. -/
theorem thread_ne_task {thread : Thread} {task : TaskRef} {id : UInt64}
    (separate : Separate given cast implicit) (fresh : state.dynamicTasks.Fresh 0x8000000000000000)
    (holds : Identified given cast implicit state ids)
    (threadCast : cast (.thread thread)) (taskCast : cast (.task task))
    (threadNamed : Names state ids (.thread thread) id) : ¬ Names state ids (.task task) id := by
  rintro ⟨known, present⟩
  have named : ids thread = some id := threadNamed
  -- an implicit id is below the bound, and so below every task of the cast
  have below : given thread = none → id < implicit := fun unset =>
    UInt64.lt_of_lt_of_le (holds.taken thread id unset named) holds.counted
  cases task with
  | registered index =>
    obtain rfl := Option.some.inj known
    have listed := Nat.lt_of_lt_of_le (holds.listed index present) holds.limited
    obtain ⟨above, apart⟩ := separate.registered index listed taskCast
    cases set : given thread with
    | none => exact UInt64.not_le.mpr (below set) above
    | some other =>
      have same := (holds.explicit thread other set).symm.trans named
      exact apart thread threadCast (set.trans same)
  | dynamic index =>
    have reserved := (fresh.bounded index id known).1
    obtain ⟨above, apart⟩ := separate.dynamic index taskCast
    cases set : given thread with
    | none => exact UInt64.not_le.mpr (UInt64.lt_of_lt_of_le (below set) above) reserved
    | some other =>
      have same := Option.some.inj ((holds.explicit thread other set).symm.trans named)
      exact UInt64.not_le.mpr (apart thread id threadCast (same ▸ set)) reserved

/-- Contexts of the cast with one id are the same context. -/
theorem context_eq_of_names {one two : Context} {id : UInt64}
    (separate : Separate given cast implicit) (fresh : state.dynamicTasks.Fresh 0x8000000000000000)
    (holds : Identified given cast implicit state ids) (oneCast : cast one) (twoCast : cast two)
    (oneNamed : Names state ids one id) (twoNamed : Names state ids two id) : one = two := by
  cases one with
  | thread thread =>
    cases two with
    | task task => exact absurd twoNamed (thread_ne_task separate fresh holds oneCast twoCast oneNamed)
    | thread other =>
      have named : ids thread = some id := oneNamed
      have named' : ids other = some id := twoNamed
      have explicit_ne : ∀ {set unset : Thread} {value : UInt64}, cast (.thread set) →
          given set = some value → given unset = none → ids set = some id → ids unset = some id → False := by
        intro set unset value casted given' missing named named'
        have same := Option.some.inj ((holds.explicit set value given').symm.trans named)
        have below := UInt64.lt_of_lt_of_le (holds.taken unset id missing named') holds.counted
        exact UInt64.not_le.mpr below (same ▸ separate.children set value casted given')
      congr 1
      cases set : given thread with
      | none =>
        cases set' : given other with
        | none => exact holds.apart thread other id set set' named named'
        | some value => exact (explicit_ne twoCast set' set named' named).elim
      | some value =>
        cases set' : given other with
        | none => exact (explicit_ne oneCast set set' named named').elim
        | some value' =>
          have same := (holds.explicit thread value set).symm.trans named
          have same' := (holds.explicit other value' set').symm.trans named'
          exact separate.threads thread other id oneCast twoCast (set.trans same) (set'.trans same')
  | task task =>
    cases two with
    | thread thread => exact absurd oneNamed (thread_ne_task separate fresh holds twoCast oneCast twoNamed)
    | task other =>
      have limit : ∀ index, (state.tasks (.registered index)).isSome → index < 16 := fun index present =>
        Nat.lt_of_lt_of_le (holds.listed index present) holds.limited
      have low : ∀ index, index < 16 → UInt64.ofNat index < 0x8000000000000000 := by decide
      congr 1
      cases task with
      | registered index =>
        obtain rfl := Option.some.inj oneNamed.1
        have small := limit index oneNamed.2
        cases other with
        | registered index' =>
          have small' := limit index' twoNamed.2
          have equal := congrArg UInt64.toNat (Option.some.inj twoNamed.1)
          have size : 16 < UInt64.size := by decide
          rw [UInt64.toNat_ofNat_of_lt' (small'.trans size), UInt64.toNat_ofNat_of_lt' (small.trans size)]
            at equal
          rw [equal]
        | dynamic index' =>
          have reserved := (fresh.bounded index' _ twoNamed.1).1
          exact absurd reserved (UInt64.not_le.mpr (low index small))
      | dynamic index =>
        cases other with
        | registered index' =>
          obtain rfl := Option.some.inj twoNamed.1
          have reserved := (fresh.bounded index _ oneNamed.1).1
          exact absurd reserved (UInt64.not_le.mpr (low index' (limit index' twoNamed.2)))
        | dynamic index' => rw [fresh.injective index index' id oneNamed.1 twoNamed.1]


end

/-- A harness starts with its explicit ids, nothing implicit and nothing captured. -/
theorem identifiable_start (process : Process) (mode : Mode) (held : Thread → Option UInt64)
    (cast : Context → Prop) (implicit : UInt64) :
    Identifiable (start process mode held).probeThreadId cast implicit (start process mode held) := by
  refine ⟨(start process mode held).probeThreadId, ?_⟩
  exact {
    counted := UInt64.zero_le
    explicit := fun _ _ set => set
    own := fun _ _ => rfl
    taken := fun _ _ unset named => by rw [unset] at named; cases named
    apart := fun _ _ _ unset _ named => by rw [unset] at named; cases named
    listed := fun _ known => by cases known
    limited := Nat.zero_le _
    current := fun _ _ polled => by cases polled
    tracked := fun _ _ kept => by cases kept
    spoken := fun _ member => by cases member }

/-- After any tests, in every run of a verify harness whose emitting contexts belong to a cast with
separate sources of ids, two different contexts never emit under one thread id. -/
theorem thread_ids_identify_of_separate (before : List Test) (past : Past) (mode : Mode)
    (held : Thread → Option UInt64) (cast : Context → Prop) (implicit : UInt64) (tape : List Step)
    (final : State) (ran : runTests {} before = some past)
    (separate : Separate (start past.process mode held).probeThreadId cast implicit)
    (reached : run? step (start past.process mode held) tape = some final)
    (admitted : Along step (SpeaksApart cast implicit) (start past.process mode held) tape) :
    IdsIdentify (captured final) := by
  have session : SessionRun final := sessionRun_run (settled_runTests ran) reached
  obtain ⟨ids, holds⟩ := along_invariant
    (Identifiable (start past.process mode held).probeThreadId cast implicit)
    (fun _ _ _ allowed holds stepped => identifiable_step allowed holds stepped)
    (identifiable_start past.process mode held cast implicit) reached admitted
  intro entry member other member' id carries carries'
  obtain ⟨casted, named⟩ := holds.spoken entry member id carries
  obtain ⟨casted', named'⟩ := holds.spoken other member' id carries'
  exact context_eq_of_names separate session.allocations.dynamicTasks holds casted casted' named named'

/-- Two workers use a tracked mutex one after the other. -/
def workersTape : List Step :=
  [.trackedCall 1 0, .trackedEmit 1 0 .lockAcquired "a", .trackedEmit 1 0 .lockReleased "a",
    .trackedCall 2 1, .trackedEmit 2 1 .lockAcquired "a", .trackedEmit 2 1 .lockReleased "a"]

theorem thread_ids_identify_of_separate_workers :
    ∃ final, run? step (start {} (.threads 2 (by decide)) fun _ => none) workersTape = some final ∧
      IdsIdentify (captured final) := by
  have runs : (run? step (start {} (.threads 2 (by decide)) fun _ => none) workersTape).isSome := by decide
  obtain ⟨final, reached⟩ := Option.isSome_iff_exists.mp runs
  refine ⟨final, reached, thread_ids_identify_of_separate [] {} (.threads 2 (by decide)) (fun _ => none)
    (fun context => context = .thread 1 ∨ context = .thread 2) 0 workersTape final rfl ?_ reached
    (by decide)⟩
  refine ⟨?_, fun _ _ _ _ => UInt64.zero_le, ?_, ?_⟩
  · intro thread other id one two set set'
    rcases one.imp Context.thread.inj Context.thread.inj with rfl | rfl <;>
      rcases two.imp Context.thread.inj Context.thread.inj with rfl | rfl
    · rfl
    · exact absurd (set.trans set'.symm) (by decide)
    · exact absurd (set.trans set'.symm) (by decide)
    · rfl
  · rintro index _ (h | h) <;> cases h
  · rintro index (h | h) <;> cases h

/-- The main thread of a scenario locks a model mutex, then a child thread does. -/
def childTape : List Step :=
  [.newLock (.own 0), .lock 0 (.own 0) 0, .unlock 0 0 false, .lock 1 (.own 0) 1, .unlock 1 1 false]

/-- The child's implicit id is the id of the main thread. -/
theorem scenarioChild_collides :
    ∃ final, run? step (start {} .scenario fun _ => none) childTape = some final ∧
      ¬ IdsIdentify (captured final) := by
  have ran : (run? step (start {} .scenario fun _ => none) childTape).map captured =
      some [⟨.thread 0, some (.guard 0), .lockAcquired 0 "model_mutex:1"⟩,
        ⟨.thread 0, some (.guard 0), .lockReleased 0 "model_mutex:1"⟩,
        ⟨.thread 1, some (.guard 1), .lockAcquired 0 "model_mutex:1"⟩,
        ⟨.thread 1, some (.guard 1), .lockReleased 0 "model_mutex:1"⟩] := by decide
  obtain ⟨final, reached, log⟩ := Option.map_eq_some_iff.mp ran
  refine ⟨final, reached, fun identify => ?_⟩
  rw [log] at identify
  have same := identify _ (List.mem_cons_self) _
    (List.mem_cons_of_mem _ (List.mem_cons_of_mem _ List.mem_cons_self)) 0 rfl rfl
  cases same

end Laplace.Soundness
