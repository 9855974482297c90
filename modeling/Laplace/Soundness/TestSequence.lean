import Laplace.Soundness.Boundaries

/-! # What tests leave behind

Between tests the counters have handed out each id once and the legacy slot is empty: an
`axiom_target` harness clears it, and a `laplace_byoc_test` harness that reaches its end can only
have drained its channel because its own sender is gone. The hooks stay as the tests so far have
left them.
-/

namespace Laplace.Soundness

open Laplace.Machine Laplace.Model Laplace.Model.Probe

/-- A process between tests. -/
structure Settled (process : Process) : Prop where
  allocations : Allocations process
  slot : process.globalProbeSender = none
  reports : ∀ resource, resource.isShared = false → process.createdReported resource = false

theorem settled_initial : Settled {} :=
  ⟨⟨Allocator.fresh_start _, Allocator.fresh_start _, Allocator.fresh_start _, Allocator.fresh_start _⟩, rfl,
    fun _ _ => rfl⟩

theorem allocations_leave {state : State} (holds : Allocations state.toProcess) :
    Allocations state.leave :=
  ⟨holds.locks.retain _, holds.asyncs.retain _, holds.waiters.retain _, holds.dynamicTasks.retain _⟩

/-- Of the semaphores only those in statics are remembered. -/
theorem leave_reports (state : State) {resource : Handle} (own : resource.isShared = false) :
    state.leave.createdReported resource = false := by
  change (resource.isShared && state.createdReported resource) = false
  rw [own, Bool.false_and]

theorem step_slot {state next : State} {taken : Step} (stepped : step state taken = some next) :
    next.globalProbeSender = state.globalProbeSender ∧ next.probeSender = state.probeSender := by
  cases step_frame stepped with
  | calm calm => exact ⟨calm.globalProbeSender, calm.probeSender⟩
  | locks _ _ _ same | asyncs _ _ _ same | waiters _ _ _ same =>
    rw [same]
    exact ⟨rfl, rfl⟩
  | dynamicTasks _ _ _ calm => exact ⟨calm.globalProbeSender, calm.probeSender⟩

theorem boundary_slot {state next : State} {taken : Boundary} (stepped : boundary state taken = some next) :
    next.globalProbeSender = state.globalProbeSender ∧ next.probeSender = state.probeSender := by
  rcases boundary_cases stepped with ⟨inner, stepped⟩ | same
  · exact step_slot stepped
  · exact ⟨congrArg (·.globalProbeSender) same, congrArg (·.probeSender) same⟩

/-- What a thread of an earlier test does leaves the sinks of the running test alone. -/
theorem slot_within {rest state next : State} {taken : Boundary}
    (stepped : boundary (rest.within state) taken = some next) :
    (state.within next).globalProbeSender = state.globalProbeSender ∧
      (state.within next).probeSender = state.probeSender := ⟨(boundary_slot stepped).1, rfl⟩

/-- A move is a step of the running test, or one of a thread of an earlier test beside it. -/
theorem move_cases {Own : Type} {ownStep : State → Own → Option State} {running next : Running}
    {move : Move Own} (moved : Running.step ownStep running move = some next) :
    (∃ taken, move = .own taken ∧ ownStep running.state taken = some next.state ∧
      next.outliving = running.outliving) ∨
    ∃ test taken rest after, move = .outliving test taken ∧ running.outliving[test]? = some rest ∧
      boundary (rest.within running.state) taken = some after ∧ next.state = running.state.within after := by
  cases move with
  | own taken =>
    obtain ⟨state, stepped, rfl⟩ := Option.map_eq_some_iff.mp moved
    exact .inl ⟨taken, rfl, stepped, rfl⟩
  | outliving test taken =>
    obtain ⟨rest, present, moved⟩ := Option.bind_eq_some_iff.mp moved
    obtain ⟨after, stepped, rfl⟩ := Option.map_eq_some_iff.mp moved
    exact .inr ⟨test, taken, rest, after, rfl, present, stepped, rfl⟩

/-- Along the body of a legacy harness the slot is empty or holds the harness's own sender. -/
structure LegacyRun (sink : Sink) (state : State) : Prop where
  allocations : Allocations state.toProcess
  slot : state.globalProbeSender = none ∨ state.globalProbeSender = some sink

theorem legacyRun_step {sink : Sink} {state next : State} {taken : LegacyStep}
    (holds : LegacyRun sink state) (stepped : legacyStep sink state taken = some next) :
    LegacyRun sink next := by
  cases taken with
  | register thread id =>
    obtain rfl := Option.some.inj stepped
    exact ⟨holds.allocations.congr rfl rfl rfl rfl, Or.inr rfl⟩
  | clear thread =>
    obtain rfl := Option.some.inj stepped
    exact ⟨holds.allocations.congr rfl rfl rfl rfl, Or.inl rfl⟩
  | body taken =>
    refine ⟨allocations_boundary stepped holds.allocations, ?_⟩
    rw [(boundary_slot stepped).1]
    exact holds.slot

theorem legacyRun_move {sink : Sink} {running next : Running} {move : Move LegacyStep}
    (holds : LegacyRun sink running.state) (moved : Running.step (legacyStep sink) running move = some next) :
    LegacyRun sink next.state := by
  rcases move_cases moved with ⟨taken, -, stepped, -⟩ | ⟨test, taken, rest, after, -, -, stepped, same⟩
  · exact legacyRun_step holds stepped
  · rw [same]
    refine ⟨allocations_within stepped holds.allocations, ?_⟩
    rw [(slot_within stepped).1]
    exact holds.slot

theorem legacyRun_run {past : Past} {moves : List (Move LegacyStep)} {final : Running}
    (settled : Settled past.process) (reached : runLegacy past moves = some final) :
    LegacyRun past.process.nextSink final.state := by
  refine run?_invariant (fun running => LegacyRun past.process.nextSink running.state) ?_ ?_ reached
    (fun _ _ => trivial)
  · exact ⟨settled.allocations.congr rfl rfl rfl rfl, Or.inl settled.slot⟩
  · intro running move next _ holds moved
    exact legacyRun_move holds moved

/-- Along the body of a verify harness no sink but the session's is installed. -/
structure SessionRun (state : State) : Prop where
  allocations : Allocations state.toProcess
  slot : state.globalProbeSender = none
  senders : ∀ thread, state.probeSender thread = none

theorem sessionRun_step {state next : State} {taken : Step} (holds : SessionRun state)
    (stepped : step state taken = some next) : SessionRun next := by
  obtain ⟨slot, senders⟩ := step_slot stepped
  refine ⟨allocations_step stepped holds.allocations, slot.trans holds.slot, ?_⟩
  rw [senders]
  exact holds.senders

theorem sessionRun_boundary {state next : State} {taken : Boundary} (holds : SessionRun state)
    (stepped : boundary state taken = some next) : SessionRun next := by
  obtain ⟨slot, senders⟩ := boundary_slot stepped
  refine ⟨allocations_boundary stepped holds.allocations, slot.trans holds.slot, ?_⟩
  rw [senders]
  exact holds.senders

theorem sessionRun_within {rest state next : State} {taken : Boundary} (holds : SessionRun state)
    (stepped : boundary (rest.within state) taken = some next) : SessionRun (state.within next) :=
  ⟨allocations_within stepped holds.allocations, (slot_within stepped).1.trans holds.slot, holds.senders⟩

theorem sessionRun_start {process : Process} (settled : Settled process) (mode : Mode)
    (held : Thread → Option UInt64) : SessionRun (start process mode held) :=
  ⟨settled.allocations.congr rfl rfl rfl rfl, settled.slot, fun _ => rfl⟩

theorem sessionRun_run {process : Process} {mode : Mode} {held : Thread → Option UInt64}
    {body : List Step} {final : State} (settled : Settled process)
    (reached : run? step (start process mode held) body = some final) : SessionRun final :=
  run?_invariant SessionRun (sessionRun_start settled mode held)
    (fun _ _ _ _ holds stepped => sessionRun_step holds stepped) reached (fun _ _ => trivial)

theorem sessionRun_moves {past : Past} {mode : Mode} {moves : List (Move Boundary)} {final : Running}
    (settled : Settled past.process)
    (reached : run? (Running.step boundary) ⟨start past.process mode fun _ => none, past.outliving⟩ moves =
      some final) : SessionRun final.state := by
  refine run?_invariant (fun running => SessionRun running.state) (sessionRun_start settled mode _) ?_ reached
    (fun _ _ => trivial)
  intro running move next _ holds moved
  rcases move_cases moved with ⟨taken, -, stepped, -⟩ | ⟨test, taken, rest, after, -, -, stepped, same⟩
  · exact sessionRun_boundary holds stepped
  · rw [same]
    exact sessionRun_within holds stepped

theorem settled_pause {past : Past} {moves : List (Move Empty)} {final : Running} (settled : Settled past.process)
    (reached : run? (Running.step fun _ => Empty.elim) ⟨{ past.process with }, past.outliving⟩ moves = some final) :
    Settled final.state.toProcess := by
  refine run?_invariant (fun running => Settled running.state.toProcess) ?_ ?_ reached (fun _ _ => trivial)
  · exact ⟨settled.allocations.congr rfl rfl rfl rfl, settled.slot, settled.reports⟩
  · intro running move next _ holds moved
    rcases move_cases moved with ⟨taken, -, -, -⟩ | ⟨test, taken, rest, after, -, -, stepped, same⟩
    · exact taken.elim
    · rw [same]
      refine ⟨allocations_within stepped holds.allocations, (slot_within stepped).1.trans holds.slot, ?_⟩
      intro resource own
      change (if resource.isShared then after.createdReported resource
        else running.state.createdReported resource) = false
      rw [own]
      exact holds.reports resource own

theorem settled_test {past next : Past} {test : Test} (settled : Settled past.process)
    (ran : Test.run past test = some next) : Settled next.process := by
  cases test with
  | verify harness schedule =>
    obtain ⟨result, finished, rfl⟩ := Option.map_eq_some_iff.mp ran
    obtain ⟨final, reached, rfl⟩ := Option.map_eq_some_iff.mp finished
    have holds := sessionRun_moves settled reached
    exact ⟨allocations_leave holds.allocations, holds.slot, fun _ own => leave_reports final.state own⟩
  | axiomTarget moves =>
    obtain ⟨final, reached, rfl⟩ := Option.map_eq_some_iff.mp ran
    have holds := legacyRun_run settled reached
    exact ⟨allocations_leave (holds.allocations.congr rfl rfl rfl rfl), rfl, fun _ own => leave_reports _ own⟩
  | byocTest moves =>
    obtain ⟨final, reached, drained⟩ := Option.bind_eq_some_iff.mp ran
    have holds := legacyRun_run settled reached
    split at drained
    · cases drained
    · next gone =>
      obtain rfl := Option.some.inj drained
      exact ⟨allocations_leave holds.allocations, holds.slot.resolve_right gone,
        fun _ own => leave_reports final.state own⟩
  | pause moves =>
    obtain ⟨final, reached, rfl⟩ := Option.map_eq_some_iff.mp ran
    exact settled_pause settled reached

/-- Every sequence of tests that reaches its end leaves a settled process. -/
theorem settled_runTests {tests : List Test} {past : Past} (ran : runTests {} tests = some past) :
    Settled past.process :=
  run?_invariant (fun past => Settled past.process) settled_initial
    (fun _ _ _ _ settled tested => settled_test settled tested) ran (fun _ _ => trivial)

end Laplace.Soundness
