import Laplace.Model.Tasks

/-! # The observed life of a task

A task reports its registration, its polls in pairs and its completion, in this order, and its handle reports that it
resolved only after the completion. Three things can break this: an abort ends a dynamic task without a
report of its completion; a `TaskSet` task completes its handle before it reports, so that a handle on another
thread may resolve in between; and the attempt counter saturates.
-/

namespace Laplace.Soundness.TaskTrace

open Laplace.Machine Laplace.Model.Tasks
open Laplace.Model.Runtime (Poll PollResult saturatingAdd u64Max)

variable {T : Type} {kind : Kind} {task : UInt64}

/-- The polls that left the task pending. -/
def attempts (task : UInt64) (polls : ℕ) : List TaskEvent :=
  (List.range polls).flatMap fun attempt =>
    [.pollStarted task (UInt64.ofNat attempt), .pollCompleted task (UInt64.ofNat attempt) .pending]

/-- Everything that a task reports: its registration, so many polls that left it pending, one that ended it, and its
completion. -/
def wholeLife (kind : Kind) (task : UInt64) (polls : ℕ) (outcome : TaskPollOutcome) : List TaskEvent :=
  kind.registration task :: attempts task polls ++
    [.pollStarted task (UInt64.ofNat polls), .pollCompleted task (UInt64.ofNat polls) outcome, .taskCompleted task]

/-- The reports of the task itself, and not of its handle. -/
def isOwn : TaskEvent → Bool
  | .joinRequested _ | .joinResolved _ => false
  | _ => true

/-- A handle resolves after it was asked for, and after the task has completed. -/
def JoinedLate (task : UInt64) (before : List TaskEvent) (event : TaskEvent) : Prop :=
  event = .joinResolved task → .joinRequested task ∈ before ∧ .taskCompleted task ∈ before

/-- Where the executor and the owner of the handle stand. -/
inductive Phase where
  /-- So many polls have left the task pending. -/
  | resting (polls : ℕ)
  | started (polls : ℕ)
  | answered (polls : ℕ) (outcome : TaskPollOutcome)
  | finished (polls : ℕ) (outcome : TaskPollOutcome)
  | unasked
  | asked
  /-- The handle has seen its task complete. -/
  | saw
deriving DecidableEq

namespace Phase

/-- What the task has reported. -/
def said (kind : Kind) (task : UInt64) : Phase → List TaskEvent
  | .resting polls => kind.registration task :: attempts task polls
  | .started polls => kind.registration task :: attempts task polls ++ [.pollStarted task (UInt64.ofNat polls)]
  | .answered polls outcome => kind.registration task :: attempts task polls ++
      [.pollStarted task (UInt64.ofNat polls), .pollCompleted task (UInt64.ofNat polls) outcome]
  | .finished polls outcome => wholeLife kind task polls outcome
  | .unasked | .asked | .saw => []

/-- A report of the task or of its handle. -/
def say (task : UInt64) : Phase → TaskEvent → Option Phase
  | .resting polls, .pollStarted task' attempt =>
      if task' = task ∧ attempt = UInt64.ofNat polls then some (.started polls) else none
  | .started polls, .pollCompleted task' attempt outcome =>
      if task' = task ∧ attempt = UInt64.ofNat polls then
        some (if outcome = .pending then .resting (polls + 1) else .answered polls outcome)
      else none
  | .answered polls outcome, .taskCompleted task' => if task' = task then some (.finished polls outcome) else none
  | .unasked, .joinRequested task' => if task' = task then some .asked else none
  | .saw, .joinResolved task' => if task' = task then some .saw else none
  | _, _ => none

/-- The handle has looked. -/
def look (ready : Bool) : Phase → Phase
  | .asked => if ready then .saw else .asked
  | phase => phase

def after (task : UInt64) (phase : Phase) : (effect : Effect T Unit) → effect.Reply → Option Phase
  | .report event, _ => phase.say task event
  | .pollCompletion, isFinished => some (phase.look isFinished)
  | .pollJoin, polled => some (phase.look (isReady polled))
  | _, _ => some phase

def permits (phase : Phase) : Effect T Unit → Prop
  | .complete => ∃ polls outcome, phase = .answered polls outcome
  | .finish result => result = .ok () ∧ ∃ polls outcome, phase = .finished polls outcome
  | .pollCompletion | .pollJoin => phase = .asked ∨ phase = .saw
  | _ => True

/-- The phase that suits an actor between two operations. -/
def Rest (task : UInt64) (phase : Phase) : Actor → Prop
  | .task observed => observed.task = task ∧
      if observed.finished then ∃ polls outcome, phase = .finished polls outcome
      else ∃ polls, phase = .resting polls ∧ observed.attempt.toNat = min polls u64Max
  | .cancelled => False
  | .handle handle => if handle.requested then phase = .asked ∨ phase = .saw else phase = .unasked

end Phase

/-- The hook is installed, and no abort takes effect. -/
def possible : (effect : Effect T Unit) → effect.Reply → Prop
  | .taskObserverHook, installed => installed = true
  | .applyAbort, applied => applied = false
  | _, _ => True

def protocol (task : UInt64) : Protocol (Effect T Unit) Effect.Reply Phase where
  permits := Phase.permits
  possible := possible
  after := Phase.after task

abbrev TaskConforms {α : Type} (task : UInt64) (rest : Phase → α → Prop) (phase : Phase) (program : TaskM T Unit α) :
    Prop :=
  program.Conforms (protocol task) rest phase

section Conformance

variable {phase : Phase} {polls : ℕ} {observed : ObservedTask} {future : TaskM T Unit (PollResult Unit)}

/-- The future of a task reports nothing of its own. -/
def Quiet (task : UInt64) (future : TaskM T Unit (PollResult Unit)) : Prop :=
  ∀ phase, TaskConforms task (fun later _ => later = phase) phase future

theorem taskSetFuture_quiet : Quiet task (taskSetFuture : TaskM T Unit _) := by
  intro phase
  refine ⟨trivial, fun polled _ => ⟨phase, rfl, ?_⟩⟩
  cases polled <;> rfl

theorem nativeObservedFuture_quiet : Quiet task (NativeObservedFuture.poll : TaskM T Unit _) := by
  intro phase
  refine ⟨trivial, fun polled _ => ⟨phase, rfl, ?_⟩⟩
  cases polled with
  | pending => rfl
  | ready value => exact ⟨trivial, fun _ _ => ⟨phase, rfl, rfl⟩⟩
  | panicked => exact ⟨trivial, fun _ _ => ⟨phase, rfl, rfl⟩⟩

/-- What a poll of the task leaves: a task that is ready has reported its completion. -/
def PolledRest (task : UInt64) (later : Phase) (result : Poll Unit × ObservedTask) : Prop :=
  later.Rest task (.task result.2) ∧ (isReady result.1 = true → ∃ polls outcome, later = .finished polls outcome)

/-- A task that is terminal completes its handle, and reports. -/
theorem finish_conforms {outcome : TaskPollOutcome} (isTask : observed.task = task) :
    TaskConforms task (PolledRest task) (.answered polls outcome) (observed.finish true : TaskM T Unit _) := by
  have reported : TaskConforms task (PolledRest task) (.answered polls outcome) (do
      reportTo true (.taskCompleted observed.task)
      return (.ready (), { observed with finished := true }) : TaskM T Unit (Poll Unit × ObservedTask)) := by
    refine ⟨trivial, fun _ _ => ⟨.finished polls outcome, if_pos isTask, ⟨isTask, ?_⟩,
        fun _ => ⟨polls, outcome, rfl⟩⟩⟩
    exact ⟨polls, outcome, rfl⟩
  obtain ⟨id, completion, attempt, finished⟩ := observed
  cases completion with
  | false => exact reported
  | true => exact ⟨⟨polls, outcome, rfl⟩, fun _ _ => ⟨.answered polls outcome, rfl, reported⟩⟩

/-- A poll reports the attempt whose number it is, unless the counter has saturated. -/
theorem poll_conforms (quiet : Quiet task future) (rest : phase.Rest task (.task observed))
    (unsaturated : ∀ polls, phase = .resting polls → polls ≤ u64Max) :
    TaskConforms task (PolledRest task) phase (observed.poll future) := by
  obtain ⟨id, completion, attempt, finished⟩ := observed
  obtain ⟨isTask, stands⟩ := rest
  cases finished with
  | true =>
    obtain ⟨polls, outcome, rfl⟩ := stands
    exact ⟨⟨isTask, polls, outcome, rfl⟩, fun _ => ⟨polls, outcome, rfl⟩⟩
  | false =>
    obtain ⟨polls, rfl, isAttempt⟩ := stands
    have bounded := unsaturated polls rfl
    have isNumber : attempt = UInt64.ofNat polls := by
      rw [← UInt64.toNat_inj, UInt64.toNat_ofNat', isAttempt, Nat.min_eq_left bounded, Nat.mod_eq_of_lt]
      simp only [u64Max] at bounded
      omega
    have next : (saturatingAdd attempt 1).toNat = min (polls + 1) u64Max := by
      rw [saturatingAdd, UInt64.toNat_ofNat', Nat.mod_eq_of_lt, isAttempt, Nat.min_eq_left bounded]
      · rfl
      · simp only [u64Max]
        omega
    refine ⟨trivial, fun hooked isHooked => ⟨.resting polls, rfl, ?_⟩⟩
    obtain rfl : hooked = true := isHooked
    refine ⟨trivial, fun _ _ => ⟨.started polls, if_pos ⟨isTask, isNumber⟩, ?_⟩⟩
    refine (quiet (.started polls)).bind fun later polled same => ?_
    obtain rfl : later = .started polls := same
    cases polled with
    | pending =>
      refine ⟨trivial, fun _ _ => ⟨.resting (polls + 1), if_pos ⟨isTask, isNumber⟩, ⟨isTask, ?_⟩, nofun⟩⟩
      exact ⟨polls + 1, rfl, next⟩
    | ready value =>
      refine ⟨trivial, fun _ _ => ⟨.answered polls .ready, if_pos ⟨isTask, isNumber⟩, ?_⟩⟩
      exact finish_conforms isTask
    | panicked =>
      refine ⟨trivial, fun _ _ => ⟨.answered polls .panicked, if_pos ⟨isTask, isNumber⟩, ?_⟩⟩
      exact finish_conforms isTask

variable {handle : TaskHandle}

/-- The handle was asked for, and has seen its task complete if it is ready. -/
def Looked (later : Phase) (ready : Bool) : Prop := (later = .asked ∨ later = .saw) ∧ (ready = true → later = .saw)

theorem look_looked (stands : phase = .asked ∨ phase = .saw) (ready : Bool) : Looked (phase.look ready) ready := by
  rcases stands with rfl | rfl
  · cases ready with
    | true => exact ⟨.inr rfl, fun _ => rfl⟩
    | false => exact ⟨.inl rfl, nofun⟩
  · exact ⟨.inr rfl, fun _ => rfl⟩

/-- The first poll of a handle reports that it was asked for. -/
theorem requested_conforms {α : Type} {rest : Phase → α → Prop} {program : TaskM T Unit α}
    (stands : phase.Rest task (.handle handle))
    (onward : ∀ later, later = .asked ∨ later = .saw → TaskConforms task rest later program) :
    TaskConforms task rest phase (do
      if !handle.requested then reportTo true (.joinRequested task)
      program) := by
  obtain ⟨requested, resolved⟩ := handle
  cases requested with
  | true => exact onward phase stands
  | false =>
    obtain rfl : phase = .unasked := stands
    exact ⟨trivial, fun _ _ => ⟨.asked, if_pos rfl, onward .asked (.inl rfl)⟩⟩

theorem pollTaskSet_conforms (stands : phase.Rest task (.handle handle)) :
    TaskConforms task (fun later result => later.Rest task (.handle result.2)) phase
      (handle.pollTaskSet task : TaskM T Unit _) := by
  refine ⟨trivial, fun hooked isHooked => ⟨phase, rfl, ?_⟩⟩
  obtain rfl : hooked = true := isHooked
  apply requested_conforms stands
  intro later asked
  refine ⟨asked, fun finished _ => ⟨later.look finished, rfl, ?_⟩⟩
  obtain ⟨stands', seen⟩ := look_looked asked finished
  obtain ⟨requested, resolved⟩ := handle
  cases finished with
  | false => exact stands'
  | true =>
    cases resolved with
    | true => exact stands'
    | false =>
      rw [seen rfl]
      exact ⟨trivial, fun _ _ => ⟨.saw, if_pos rfl, .inr rfl⟩⟩

theorem pollObservedNative_conforms (asked : phase = .asked ∨ phase = .saw) :
    TaskConforms task (fun later result => Looked later (isReady result)) phase
      (pollObservedNative : TaskM T Unit _) := by
  refine ⟨asked, fun polled _ => ⟨phase.look (isReady polled), rfl, ?_⟩⟩
  have looked := look_looked asked (isReady polled)
  cases polled with
  | pending => exact looked
  | ready result =>
    cases result with
    | error error => exact looked
    | ok value =>
      refine ⟨trivial, fun panicked _ => ⟨_, rfl, ?_⟩⟩
      cases panicked with
      | true => exact looked
      | false =>
        refine ⟨trivial, fun output _ => ⟨_, rfl, ?_⟩⟩
        cases output with
        | some value => exact looked
        | none => exact ⟨trivial, nofun⟩

/-- A handle that is ready for the first time reports that it resolved. -/
theorem resolved_conforms {result : Poll (Except TaskJoinError T)} (looked : Looked phase (isReady result)) :
    TaskConforms task (fun later result => later.Rest task (.handle result.2)) phase (do
      if isReady result && !handle.resolved then
        reportTo (← perform .taskObserverHook) (.joinResolved task)
        return (result, { requested := true, resolved := true })
      return (result, { handle with requested := true }) : TaskM T Unit (_ × TaskHandle)) := by
  obtain ⟨stands, seen⟩ := looked
  split
  · next isFirst =>
    rw [Bool.and_eq_true] at isFirst
    rw [seen isFirst.1]
    refine ⟨trivial, fun hooked isHooked => ⟨.saw, rfl, ?_⟩⟩
    obtain rfl : hooked = true := isHooked
    exact ⟨trivial, fun _ _ => ⟨.saw, if_pos rfl, .inr rfl⟩⟩
  · exact stands

theorem pollHandle_conforms (stands : phase.Rest task (.handle handle)) :
    TaskConforms task (fun later result => later.Rest task (.handle result.2)) phase
      (handle.poll (some task) pollObservedNative : TaskM T Unit _) := by
  obtain ⟨requested, resolved⟩ := handle
  cases requested with
  | true =>
    refine (pollObservedNative_conforms stands).bind fun later result looked => ?_
    exact resolved_conforms looked
  | false =>
    obtain rfl : phase = .unasked := stands
    refine ⟨trivial, fun hooked isHooked => ⟨.unasked, rfl, ?_⟩⟩
    obtain rfl : hooked = true := isHooked
    refine ⟨trivial, fun _ _ => ⟨.asked, if_pos rfl, ?_⟩⟩
    refine (pollObservedNative_conforms (.inl rfl)).bind fun later result looked => ?_
    exact resolved_conforms looked

/-- Every operation conforms, as long as the attempt counter has not saturated. -/
theorem start_conforms {actor : Actor} {operation : Operation} {program : TaskM T Unit Actor}
    (started : start task kind actor operation = some program) (rest : phase.Rest task actor)
    (unsaturated : operation = .poll → ∀ polls, phase = .resting polls → polls ≤ u64Max) :
    TaskConforms task (fun later actor => later.Rest task actor) phase program := by
  cases kind <;> cases actor <;> cases operation <;> try cases started
  case taskSet.task.poll observed =>
    exact (poll_conforms taskSetFuture_quiet rest (unsaturated rfl)).bind fun _ _ polled => polled.1
  case taskSet.handle.poll handle =>
    exact (pollTaskSet_conforms rest).bind fun _ _ stands => stands
  case dynamic.task.poll observed =>
    refine (poll_conforms nativeObservedFuture_quiet rest (unsaturated rfl)).bind fun later result polled => ?_
    obtain ⟨answer, observed⟩ := result
    cases answer with
    | pending => exact polled.1
    | ready value => exact ⟨⟨rfl, polled.2 rfl⟩, fun _ _ => ⟨later, rfl, polled.1⟩⟩
  case dynamic.task.cancel observed =>
    refine ⟨trivial, fun applied isApplied => ⟨phase, rfl, ?_⟩⟩
    obtain rfl : applied = false := isApplied
    exact rest
  case dynamic.handle.poll handle =>
    exact (pollHandle_conforms rest).bind fun _ _ stands => stands
  case dynamic.handle.abort handle =>
    exact ⟨trivial, fun _ _ => ⟨phase, rfl, rest⟩⟩

end Conformance

section Invariant

/-- The phases of an executor. -/
def Phase.isTask : Phase → Bool
  | .resting _ | .started _ | .answered .. | .finished .. => true
  | .unasked | .asked | .saw => false

/-- The task has reported what its phase says, and its handle has seen no more than was reported. -/
structure Invariant (kind : Kind) (task : UInt64) (world : World T Unit) (phases : Role → Phase) : Prop where
  executes : (phases .executor).isTask = true
  owns : (phases .owner).isTask = false
  own : world.trace.filter isOwn = (phases .executor).said kind task
  decided : ∀ polls outcome, phases .executor = .answered polls outcome ∨ phases .executor = .finished polls outcome →
    outcome ≠ .pending
  completed : world.completed = true →
    ∃ polls outcome, phases .executor = .answered polls outcome ∨ phases .executor = .finished polls outcome
  ended : ∀ result, world.life = .ended result → ∃ polls outcome, phases .executor = .finished polls outcome
  asked : phases .owner ≠ .unasked → .joinRequested task ∈ world.trace
  saw : phases .owner = .saw → .taskCompleted task ∈ world.trace
  joined : Throughout (JoinedLate task) world.trace

variable {world : World T Unit} {phases : Role → Phase} {process : Role} {later : Phase}

theorem attempts_succ (task : UInt64) (polls : ℕ) :
    attempts task (polls + 1) = attempts task polls ++
      [.pollStarted task (UInt64.ofNat polls), .pollCompleted task (UInt64.ofNat polls) .pending] := by
  rw [attempts, List.range_succ, List.flatMap_append]
  rfl

/-- What a report can be. -/
theorem say_cases {phase : Phase} {event : TaskEvent} (said : phase.say task event = some later) :
    (∃ polls, phase = .resting polls ∧ event = .pollStarted task (UInt64.ofNat polls) ∧ later = .started polls) ∨
    (∃ polls outcome, phase = .started polls ∧ event = .pollCompleted task (UInt64.ofNat polls) outcome ∧
      later = if outcome = .pending then .resting (polls + 1) else .answered polls outcome) ∨
    (∃ polls outcome, phase = .answered polls outcome ∧ event = .taskCompleted task ∧
        later = .finished polls outcome) ∨
    (phase = .unasked ∧ event = .joinRequested task ∧ later = .asked) ∨
    (phase = .saw ∧ event = .joinResolved task ∧ later = .saw) := by
  unfold Phase.say at said
  split at said
  · next polls task' attempt =>
    split at said
    · next same =>
      obtain ⟨rfl, rfl⟩ := same
      exact .inl ⟨polls, rfl, rfl, (Option.some.inj said).symm⟩
    · cases said
  · next polls task' attempt outcome =>
    split at said
    · next same =>
      obtain ⟨rfl, rfl⟩ := same
      exact .inr (.inl ⟨polls, outcome, rfl, rfl, (Option.some.inj said).symm⟩)
    · cases said
  · next polls outcome task' =>
    split at said
    · next same =>
      obtain rfl := same
      exact .inr (.inr (.inl ⟨polls, outcome, rfl, rfl, (Option.some.inj said).symm⟩))
    · cases said
  · next task' =>
    split at said
    · next same =>
      obtain rfl := same
      exact .inr (.inr (.inr (.inl ⟨rfl, rfl, (Option.some.inj said).symm⟩)))
    · cases said
  · next task' =>
    split at said
    · next same =>
      obtain rfl := same
      exact .inr (.inr (.inr (.inr ⟨rfl, rfl, (Option.some.inj said).symm⟩)))
    · cases said
  · cases said

/-- A task that has reported its completion is shown so. -/
theorem Invariant.shown (holds : Invariant kind task world phases) {polls : ℕ} {outcome : TaskPollOutcome}
    (isFinished : phases .executor = .finished polls outcome) : .taskCompleted task ∈ world.trace := by
  have own := holds.own
  rw [isFinished] at own
  have shown : .taskCompleted task ∈ world.trace.filter isOwn := by
    rw [own]
    simp [Phase.said, wholeLife]
  exact List.mem_of_mem_filter shown

/-- A report of the task itself. -/
theorem Invariant.reports (holds : Invariant kind task world phases) {event : TaskEvent} (own : isOwn event = true)
    (isTask : later.isTask = true) (said : later.said kind task = (phases .executor).said kind task ++ [event])
    (decided : ∀ polls outcome, later = .answered polls outcome ∨ later = .finished polls outcome →
        outcome ≠ .pending)
    (completed : world.completed = true → ∃ polls outcome, later = .answered polls outcome ∨
        later = .finished polls outcome)
    (ended : ∀ polls outcome, phases .executor ≠ .finished polls outcome) :
    Invariant kind task { world with trace := world.trace ++ [event] } (Function.update phases .executor later) where
  executes := by rwa [Function.update_self]
  owns := by
    rw [Function.update_of_ne (by decide)]
    exact holds.owns
  own := by
    rw [Function.update_self, said, ← holds.own]
    simp only [List.filter_append, List.filter_cons, own, if_true, List.filter_nil]
  decided := by rwa [Function.update_self]
  completed isCompleted := by
    rw [Function.update_self]
    exact completed isCompleted
  ended result isEnded := by
    obtain ⟨polls, outcome, isFinished⟩ := holds.ended result isEnded
    exact absurd isFinished (ended polls outcome)
  asked isAsked := by
    rw [Function.update_of_ne (by decide)] at isAsked
    exact List.mem_append_left _ (holds.asked isAsked)
  saw hasSeen := by
    rw [Function.update_of_ne (by decide)] at hasSeen
    exact List.mem_append_left _ (holds.saw hasSeen)
  joined := holds.joined.append fun isJoin => by
    rw [isJoin] at own
    cases own

/-- A report of the handle. -/
theorem Invariant.handleReports (holds : Invariant kind task world phases) {event : TaskEvent}
    (foreign : isOwn event = false) (isHandle : later.isTask = false)
    (asked : later ≠ .unasked → .joinRequested task ∈ world.trace ++ [event])
    (saw : later = .saw → .taskCompleted task ∈ world.trace)
    (late : JoinedLate task world.trace event) :
    Invariant kind task { world with trace := world.trace ++ [event] } (Function.update phases .owner later) where
  executes := by
    rw [Function.update_of_ne (by decide)]
    exact holds.executes
  owns := by rwa [Function.update_self]
  own := by
    rw [Function.update_of_ne (by decide), ← holds.own]
    simp only [List.filter_append, List.filter_cons, foreign, Bool.false_eq_true, if_false, List.filter_nil,
      List.append_nil]
  decided := by
    rw [Function.update_of_ne (by decide)]
    exact holds.decided
  completed isCompleted := by
    rw [Function.update_of_ne (by decide)]
    exact holds.completed isCompleted
  ended result isEnded := by
    rw [Function.update_of_ne (by decide)]
    exact holds.ended result isEnded
  asked isAsked := by
    rw [Function.update_self] at isAsked
    exact asked isAsked
  saw hasSeen := by
    rw [Function.update_self] at hasSeen
    exact List.mem_append_left _ (saw hasSeen)
  joined := holds.joined.append late

/-- An effect that reports nothing leaves the phases as they are. -/
theorem Invariant.unchanged (holds : Invariant kind task world phases) {world' : World T Unit}
    (trace : world'.trace = world.trace)
    (completed : world'.completed = true → ∃ polls outcome,
      phases .executor = .answered polls outcome ∨ phases .executor = .finished polls outcome)
    (ended : ∀ result, world'.life = .ended result → ∃ polls outcome, phases .executor = .finished polls outcome) :
    Invariant kind task world' (Function.update phases process (phases process)) := by
  rw [Function.update_eq_self]
  constructor
  · exact holds.executes
  · exact holds.owns
  · rw [trace]
    exact holds.own
  · exact holds.decided
  · exact completed
  · exact ended
  · rw [trace]
    exact holds.asked
  · rw [trace]
    exact holds.saw
  · rw [trace]
    exact holds.joined

/-- A process in a phase of the executor is the executor. -/
theorem Invariant.isExecutor (holds : Invariant kind task world phases) (isTask : (phases process).isTask = true) :
    process = .executor := by
  cases process with
  | executor => rfl
  | owner =>
    rw [holds.owns] at isTask
    cases isTask

theorem Invariant.isOwner (holds : Invariant kind task world phases) (isHandle : (phases process).isTask = false) :
    process = .owner := by
  cases process with
  | owner => rfl
  | executor =>
    rw [holds.executes] at isHandle
    cases isHandle

/-- Every report that the protocol knows keeps the invariant. -/
theorem Invariant.report (holds : Invariant kind task world phases) {event : TaskEvent}
    (said : (phases process).say task event = some later) :
    Invariant kind task { world with trace := world.trace ++ [event] } (Function.update phases process later) := by
  obtain ⟨polls, stands, rfl, rfl⟩ | ⟨polls, outcome, stands, rfl, rfl⟩ | ⟨polls, outcome, stands, rfl, rfl⟩ |
    ⟨stands, rfl, rfl⟩ | ⟨stands, rfl, rfl⟩ := say_cases said
  · obtain rfl := holds.isExecutor (congrArg Phase.isTask stands)
    apply holds.reports rfl rfl
    · rw [stands]
      rfl
    · rintro polls outcome (same | same) <;> cases same
    · intro isCompleted
      obtain ⟨polls', outcome, same | same⟩ := holds.completed isCompleted <;> rw [stands] at same <;> cases same
    · intro polls' outcome same
      rw [stands] at same
      cases same
  · obtain rfl := holds.isExecutor (congrArg Phase.isTask stands)
    have unfinished : ∀ polls' outcome', phases .executor ≠ .finished polls' outcome' := by
      intro polls' outcome' same
      rw [stands] at same
      cases same
    have uncompleted : world.completed ≠ true := by
      intro isCompleted
      obtain ⟨polls', outcome, same | same⟩ := holds.completed isCompleted <;> rw [stands] at same <;> cases same
    split
    · next isPending =>
      apply holds.reports rfl rfl
      · rw [stands, isPending]
        simp only [Phase.said, attempts_succ, List.cons_append, List.append_assoc, List.nil_append]
      · rintro polls outcome (same | same) <;> cases same
      · exact fun isCompleted => absurd isCompleted uncompleted
      · exact unfinished
    · next isDecided =>
      apply holds.reports rfl rfl
      · rw [stands]
        simp only [Phase.said, List.cons_append, List.append_assoc, List.nil_append]
      · rintro polls outcome (same | same) <;> cases same
        exact isDecided
      · exact fun isCompleted => absurd isCompleted uncompleted
      · exact unfinished
  · obtain rfl := holds.isExecutor (congrArg Phase.isTask stands)
    apply holds.reports rfl rfl
    · rw [stands]
      simp only [Phase.said, wholeLife, List.cons_append, List.append_assoc, List.nil_append]
    · rintro polls' outcome' (same | same) <;> cases same
      exact holds.decided polls outcome (.inl stands)
    · exact fun _ => ⟨polls, outcome, .inr rfl⟩
    · intro polls' outcome same
      rw [stands] at same
      cases same
  · obtain rfl := holds.isOwner (congrArg Phase.isTask stands)
    apply holds.handleReports rfl rfl
    · exact fun _ => List.mem_append_right _ (List.mem_singleton_self _)
    · exact nofun
    · exact nofun
  · obtain rfl := holds.isOwner (congrArg Phase.isTask stands)
    have isAsked : .joinRequested task ∈ world.trace := by
      apply holds.asked
      rw [stands]
      nofun
    have isShown := holds.saw stands
    apply holds.handleReports rfl rfl
    · exact fun _ => List.mem_append_left _ isAsked
    · exact fun _ => isShown
    · exact fun _ => ⟨isAsked, isShown⟩

/-- A handle looks whether its task has ended, which was reported if it has. -/
theorem Invariant.looked (holds : Invariant kind task world phases)
    (stands : phases process = .asked ∨ phases process = .saw) {ready : Bool}
    (shown : ready = true → .taskCompleted task ∈ world.trace) :
    Invariant kind task world (Function.update phases process ((phases process).look ready)) := by
  have isOwner : process = .owner := by
    rcases stands with same | same <;> exact holds.isOwner (congrArg Phase.isTask same)
  obtain rfl := isOwner
  have isAsked : .joinRequested task ∈ world.trace := by
    apply holds.asked
    rcases stands with same | same <;> rw [same] <;> nofun
  have apart : Role.executor ≠ .owner := by decide
  constructor
  · rw [Function.update_of_ne apart]
    exact holds.executes
  · rw [Function.update_self]
    rcases stands with same | same <;> rw [same] <;> cases ready <;> rfl
  · rw [Function.update_of_ne apart]
    exact holds.own
  · rw [Function.update_of_ne apart]
    exact holds.decided
  · rw [Function.update_of_ne apart]
    exact holds.completed
  · rw [Function.update_of_ne apart]
    exact holds.ended
  · exact fun _ => isAsked
  · rw [Function.update_self]
    intro sees
    rcases stands with same | same
    · rw [same] at sees
      cases ready with
      | true => exact shown rfl
      | false => cases sees
    · exact holds.saw same
  · exact holds.joined

end Invariant

section Runs

abbrev TaskConfig (T : Type) := System.Config (Effect T Unit) Effect.Reply Role Actor (World T Unit)

abbrev TaskAction (T : Type) := System.Action Role Operation (PollResult T)

/-- A step that keeps the reports in order. -/
def isOrderly (task : UInt64) (config : TaskConfig T) : TaskAction T → Bool
  | .advance process _ =>
      match config.program process with
      -- no abort takes effect
      | .call .applyAbort _ => config.shared.life.cancel.isNone
      -- no handle looks at a completion that is not yet reported
      | .call .pollCompletion _ => !config.shared.completed || .taskCompleted task ∈ config.shared.trace
      | _ => true
  | .start process .poll =>
      match config.program process with
      -- the last attempt that the counter can count is made once
      | .done (.task observed) => observed.finished || observed.attempt.toNat ≠ u64Max ||
          .pollStarted task observed.attempt ∉ config.shared.trace
      | _ => true
  | _ => true

/-- Each attempt of a task that rests has been reported. -/
theorem Invariant.attempted {world : World T Unit} {phases : Role → Phase} {polls attempt : ℕ}
    (holds : Invariant kind task world phases) (stands : phases .executor = .resting polls)
        (earlier : attempt < polls) :
    .pollStarted task (UInt64.ofNat attempt) ∈ world.trace := by
  have own := holds.own
  rw [stands] at own
  have shown : .pollStarted task (UInt64.ofNat attempt) ∈ world.trace.filter isOwn := by
    rw [own]
    apply List.mem_cons_of_mem
    exact List.mem_flatMap.mpr ⟨attempt, List.mem_range.mpr earlier, List.mem_cons_self⟩
  exact List.mem_of_mem_filter shown

theorem taskSystem_starts : (taskSystem kind task : System (Effect T Unit) _ _ _ _ _ _).StartsWhen (isOrderly task · ·)
    (protocol task) (Phase.Rest task) (Invariant kind task) := by
  intro config phases process operation actor program phased orderly idle started
  obtain ⟨holds, conform⟩ := phased
  have rest := conform process
  rw [idle] at rest
  apply start_conforms started rest
  rintro rfl polls stands
  by_contra! exceeds
  obtain rfl := holds.isExecutor (congrArg Phase.isTask stands)
  rw [stands] at rest
  cases actor with
  | cancelled => exact rest
  | handle handle =>
    obtain ⟨requested, resolved⟩ := handle
    cases requested with
    | false => cases rest
    | true => rcases rest with same | same <;> cases same
  | task observed =>
    obtain ⟨isTask, rested⟩ := rest
    cases finished : observed.finished with
    | true =>
      rw [finished] at rested
      obtain ⟨polls', outcome, same⟩ := rested
      cases same
    | false =>
      rw [finished] at rested
      obtain ⟨polls', same, isAttempt⟩ := rested
      cases same
      rw [Nat.min_eq_right exceeds.le] at isAttempt
      have shown := holds.attempted stands exceeds
      rw [← isAttempt, UInt64.ofNat_toNat] at shown
      simp [isOrderly, idle, finished, isAttempt, shown] at orderly

theorem taskSystem_keeps : (taskSystem kind task : System (Effect T Unit) _ _ _ _ _ _).KeepsWhen (isOrderly task · ·)
    (protocol task) (Phase.Rest task) (Invariant kind task) := by
  intro config phases process effect next choice reply shared phased orderly running answered
  obtain ⟨holds, conform⟩ := phased
  cases effect with
  | panic message => cases answered
  | applyAbort =>
    simp only [isOrderly, running, Option.isNone_iff_eq_none] at orderly
    simp only [taskSystem, World.answer, orderly, Option.some.injEq, Prod.mk.injEq] at answered
    obtain ⟨rfl, rfl⟩ := answered
    refine ⟨rfl, fun later _ moved => ?_⟩
    obtain rfl := Option.some.inj moved
    exact holds.unchanged rfl holds.completed holds.ended
  | report event =>
    obtain ⟨rfl, rfl⟩ := Prod.mk.inj (Option.some.inj answered)
    exact ⟨trivial, fun later _ moved => holds.report moved⟩
  | pollCompletion =>
    obtain ⟨rfl, rfl⟩ := Prod.mk.inj (Option.some.inj answered)
    refine ⟨trivial, fun later permitted moved => ?_⟩
    obtain rfl := Option.some.inj moved
    apply holds.looked permitted
    intro isCompleted
    simpa [isOrderly, running, isCompleted] using orderly
  | pollJoin =>
    obtain ⟨rfl, rfl⟩ := Prod.mk.inj (Option.some.inj answered)
    refine ⟨trivial, fun later permitted moved => ?_⟩
    obtain rfl := Option.some.inj moved
    apply holds.looked permitted
    intro isEnded
    cases life : config.shared.life with
    | running aborting =>
      rw [life] at isEnded
      cases isEnded
    | ended result =>
      obtain ⟨polls, outcome, isFinished⟩ := holds.ended result life
      exact holds.shown isFinished
  | complete =>
    obtain ⟨rfl, rfl⟩ := Prod.mk.inj (Option.some.inj answered)
    refine ⟨trivial, fun later permitted moved => ?_⟩
    obtain rfl := Option.some.inj moved
    obtain ⟨polls, outcome, stands⟩ := permitted
    obtain rfl := holds.isExecutor (congrArg Phase.isTask stands)
    exact holds.unchanged rfl (fun _ => ⟨polls, outcome, .inl stands⟩) holds.ended
  | finish result =>
    obtain ⟨rfl, rfl⟩ := Prod.mk.inj (Option.some.inj answered)
    refine ⟨trivial, fun later permitted moved => ?_⟩
    obtain rfl := Option.some.inj moved
    obtain ⟨_, polls, outcome, stands⟩ := permitted
    obtain rfl := holds.isExecutor (congrArg Phase.isTask stands)
    exact holds.unchanged rfl holds.completed fun _ _ => ⟨polls, outcome, stands⟩
  | abort =>
    obtain ⟨rfl, rfl⟩ := Prod.mk.inj (Option.some.inj answered)
    refine ⟨trivial, fun later _ moved => ?_⟩
    obtain rfl := Option.some.inj moved
    refine holds.unchanged rfl holds.completed fun result isEnded => ?_
    cases life : config.shared.life with
    | running aborting =>
      rw [life] at isEnded
      cases isEnded
    | ended result => exact holds.ended result life
  | taskObserverHook =>
    obtain ⟨rfl, rfl⟩ := Prod.mk.inj (Option.some.inj answered)
    refine ⟨rfl, fun later _ moved => ?_⟩
    obtain rfl := Option.some.inj moved
    exact holds.unchanged rfl holds.completed holds.ended
  | pollFuture | publish _ | takeOutput | storePanicked | loadPanicked | pollControl =>
    obtain ⟨rfl, rfl⟩ := Prod.mk.inj (Option.some.inj answered)
    refine ⟨trivial, fun later _ moved => ?_⟩
    obtain rfl := Option.some.inj moved
    exact holds.unchanged rfl holds.completed holds.ended

/-- A task that was just registered, with its handle. -/
def spawned (kind : Kind) (task : UInt64) : Option (TaskConfig T) :=
  match (register kind task : TaskM T Unit _).run (World.handle .pending) {} with
  | (some observed, shared) =>
      some { shared, program := fun
              | .executor => .done (.task observed)
              | .owner => .done (.handle {}) }
  | (none, _) => none

/-- The future returned, panicked, or was dropped by an abort. -/
def isTerminal : Actor → Bool
  | .task observed => observed.finished
  | .cancelled => true
  | .handle _ => false

/-- The reports of a task are those of a life or of its beginning, and of a whole life once the task is terminal; and
its handle resolved no earlier. -/
structure Lived (kind : Kind) (task : UInt64) (config : TaskConfig T) : Prop where
  begins : ∃ polls outcome, outcome ≠ .pending ∧ config.shared.trace.filter isOwn <+: wholeLife kind task polls outcome
  ends : ∀ actor, config.program .executor = .done actor → isTerminal actor = true →
    ∃ polls outcome, outcome ≠ .pending ∧ config.shared.trace.filter isOwn = wholeLife kind task polls outcome
  joined : Throughout (JoinedLate task) config.shared.trace

/-- What a task has said is the beginning of a life. -/
theorem said_isPrefix {phase : Phase} (isTask : phase.isTask = true)
    (decided : ∀ polls outcome, phase = .answered polls outcome ∨ phase = .finished polls outcome →
        outcome ≠ .pending) :
    ∃ polls outcome, outcome ≠ .pending ∧ phase.said kind task <+: wholeLife kind task polls outcome := by
  cases phase with
  | unasked | asked | saw => cases isTask
  | resting polls => exact ⟨polls, .ready, nofun, List.prefix_append _ _⟩
  | started polls =>
    refine ⟨polls, .ready, nofun, ?_⟩
    exact List.prefix_append_right_inj _ |>.mpr (by simp)
  | answered polls outcome =>
    refine ⟨polls, outcome, decided polls outcome (.inl rfl), ?_⟩
    exact List.prefix_append_right_inj _ |>.mpr (by simp)
  | finished polls outcome => exact ⟨polls, outcome, decided polls outcome (.inr rfl), List.prefix_rfl⟩

/-- The reports of a task and its handle come in order wherever no abort takes effect, no handle looks between the
completion of a `TaskSet` task and its report, and the attempts can be counted. -/
theorem task_lives_in_order {initial config : TaskConfig T} {actions : List (TaskAction T)}
    (isSpawned : spawned kind task = some initial)
    (reached : run? (taskSystem kind task).step initial actions = some config)
    (orderly : Along (taskSystem kind task).step (isOrderly task · ·) initial actions) : Lived kind task config := by
  have begins : System.Phased (protocol task) (Phase.Rest task) (Invariant kind task) initial fun
      | .executor => .resting 0
      | .owner => .unasked := by
    obtain rfl := Option.some.inj isSpawned
    refine ⟨?_, fun process => ?_⟩
    · constructor
      · rfl
      · rfl
      · cases kind <;> rfl
      · rintro polls outcome (same | same) <;> cases same
      · nofun
      · nofun
      · exact fun isAsked => absurd rfl isAsked
      · nofun
      · have first : JoinedLate task [] (kind.registration task) := by cases kind <;> nofun
        exact (throughout_nil _).append first
    · cases process with
      | executor => exact ⟨rfl, 0, rfl, rfl⟩
      | owner => rfl
  obtain ⟨phases, holds, conform⟩ :=
    System.phases_of_admitted_run taskSystem_starts taskSystem_keeps begins reached orderly
  constructor
  · rw [holds.own]
    exact said_isPrefix holds.executes holds.decided
  · intro actor idle terminal
    have rest := conform .executor
    rw [idle] at rest
    cases actor with
    | cancelled => exact rest.elim
    | handle handle => cases terminal
    | task observed =>
      have isDone : observed.finished = true := terminal
      have stands := rest.2
      rw [if_pos isDone] at stands
      obtain ⟨polls, outcome, isFinished⟩ := stands
      refine ⟨polls, outcome, holds.decided polls outcome (.inr isFinished), ?_⟩
      rw [holds.own, isFinished]
      rfl
  · exact holds.joined

/-- A dynamic task that is pending once and then ready, and is joined. -/
def joinedTask : List (TaskAction Unit) :=
  [.start .executor .poll, .advance .executor .pending, .advance .executor .pending, .advance .executor .pending,
    .advance .executor .pending, .start .owner .poll, .advance .owner .pending, .advance .owner .pending,
    .advance .owner .pending, .start .executor .poll, .advance .executor .pending, .advance .executor .pending,
    .advance .executor (.ready ()), .advance .executor .pending, .advance .executor .pending,
    .advance .executor .pending, .advance .executor .pending, .start .owner .poll, .advance .owner .pending,
    .advance .owner .pending, .advance .owner .pending, .advance .owner .pending, .advance .owner .pending]

theorem task_lives_in_order_joined :
    ∃ initial config, spawned .dynamic 5 = some initial ∧
      run? (taskSystem .dynamic 5).step initial joinedTask = some config ∧
      config.shared.trace = [.dynamicTaskSpawned 5, .pollStarted 5 0, .pollCompleted 5 0 .pending, .joinRequested 5,
        .pollStarted 5 1, .pollCompleted 5 1 .ready, .taskCompleted 5, .joinResolved 5] ∧
      Lived .dynamic 5 config := by
  obtain ⟨initial, isSpawned⟩ : ∃ initial : TaskConfig Unit, spawned .dynamic 5 = some initial := ⟨_, rfl⟩
  have shown : ((spawned .dynamic 5).bind fun initial => run? (taskSystem .dynamic 5).step initial joinedTask).map
      (fun config => config.shared.trace) = some [.dynamicTaskSpawned 5, .pollStarted 5 0,
          .pollCompleted 5 0 .pending,
        .joinRequested 5, .pollStarted 5 1, .pollCompleted 5 1 .ready, .taskCompleted 5, .joinResolved 5] := by decide
  have isOrdered : (spawned .dynamic 5).map (fun initial =>
      decide (Along (taskSystem .dynamic 5).step (isOrderly 5 · ·) initial joinedTask)) = some true := by decide
  rw [isSpawned, Option.bind_some] at shown
  rw [isSpawned] at isOrdered
  have orderly := of_decide_eq_true (Option.some.inj isOrdered)
  obtain ⟨config, reached, trace⟩ := Option.map_eq_some_iff.mp shown
  exact ⟨initial, config, isSpawned, reached, trace, task_lives_in_order isSpawned reached orderly⟩

/-- A dynamic task that is aborted before its first poll, and joined. -/
def abortedTask : List (TaskAction Unit) :=
  [.start .owner .abort, .advance .owner .pending, .start .executor .cancel, .advance .executor .pending,
    .start .owner .poll, .advance .owner .pending, .advance .owner .pending, .advance .owner .pending,
    .advance .owner .pending, .advance .owner .pending]

/-- The handle of an aborted task resolves, and no completion was reported. -/
theorem aborted_task_uncompleted :
    ¬ ∀ initial config, spawned .dynamic 5 = some initial →
      run? (taskSystem .dynamic 5).step initial abortedTask = some config → Lived .dynamic 5 config := by
  intro always
  obtain ⟨initial, isSpawned⟩ : ∃ initial : TaskConfig Unit, spawned .dynamic 5 = some initial := ⟨_, rfl⟩
  have shown : ((spawned .dynamic 5).bind fun initial => run? (taskSystem .dynamic 5).step initial abortedTask).map
      (fun config => config.shared.trace) = some [.dynamicTaskSpawned 5, .joinRequested 5, .joinResolved 5] :=
          by decide
  rw [isSpawned, Option.bind_some] at shown
  obtain ⟨config, reached, trace⟩ := Option.map_eq_some_iff.mp shown
  have joined := (always initial config isSpawned reached).joined
  rw [trace] at joined
  have late := joined [.dynamicTaskSpawned 5, .joinRequested 5] (.joinResolved 5) [] rfl rfl
  revert late
  decide

end Runs

end Laplace.Soundness.TaskTrace
