import Laplace.Soundness.LockHierarchy
import Laplace.Soundness.TestRealization

/-! # Outcomes of generated tests

Whether a test passes is settled by what its function does with its locks in each worker, and by what was declared.
Every schedule that ends gives the same outcome, and where some schedule makes two workers wait for each other, every
other one that ends is failed unless the bug was expected.
-/

namespace Laplace.Soundness.VerifyTest

open Laplace.Machine Laplace.Model Laplace.Model.VerifyTest Laplace.Model.LockPrograms
open Laplace.Soundness.LockPrograms

/-! ## Empty captures -/

/-- Some worker acquires a lock. -/
def Locks (test : Test) : Prop := ∃ worker access resource, .acquire access resource ∈ test.commands worker

theorem emitted_of_acquire {threadId : UInt64} {held : Held} {commands : List Command} {access : Access}
    {resource : String} (acquires : .acquire access resource ∈ commands) :
    emitted (effects threadId held (closing held commands)) ≠ [] := by
  induction commands generalizing held with
  | nil => cases acquires
  | cons command commands ih =>
    rw [closing, effects, emitted_append]
    rcases List.mem_cons.mp acquires with rfl | later
    · rw [performs, emitted_acquires]
      exact List.cons_ne_nil _ _
    · exact fun empty => ih later (List.append_eq_nil_iff.mp empty).2

theorem effects_of_idle {threadId : UInt64} {commands : List Command}
    (idle : ∀ access resource, .acquire access resource ∉ commands) :
    effects threadId [] (closing [] commands) = [] := by
  induction commands with
  | nil => rfl
  | cons command commands ih =>
    cases command with
    | acquire access resource => exact absurd List.mem_cons_self (idle access resource)
    | drop resource => exact ih fun access resource member => idle access resource (List.mem_cons_of_mem _ member)

section Runs

variable {Thread : Type} [DecidableEq Thread] {threadId : Thread → UInt64} {commands : Thread → List Command}
  {config : Config Thread} {actions : List (System.Action Thread Empty Unit)}

/-- The trace has no event that no body emits. -/
def Shows (threadId : Thread → UInt64) (commands : Thread → List Command) (world : World Thread)
    (_ : Thread → List Effect) : Prop :=
  ∀ event ∈ world.trace, ∃ thread, .emit event ∈ effects (threadId thread) [] (closing [] (commands thread))

theorem shows_of_run (reached : run? (lockPrograms threadId).step (initially commands) actions = some config) :
    ∃ history, Shows threadId commands config.shared history ∧
      System.Performed (fun thread => known (threadId thread)) (initially commands) config history := by
  refine System.scripts_of_run (scripted threadId) nofun ?_ reached
  rintro world history thread effect choice reply later shows - isNext answered
  rw [initial_script] at isNext
  cases effect with
  | currentThreadId | give resource access =>
    cases answered
    exact shows
  | take resource access =>
    cases (Option.ite_none_right_eq_some.mp answered).2
    exact shows
  | emit event =>
    cases answered
    intro other member
    rcases List.mem_append.mp member with before | last
    · exact shows other before
    · obtain rfl := List.mem_singleton.mp last
      exact ⟨thread, isNext.subset (List.mem_append_right _ List.mem_cons_self)⟩

/-- A capture is empty exactly if no body acquires a lock. -/
theorem trace_eq_nil_iff (injective : Function.Injective threadId)
    (reached : run? (lockPrograms threadId).step (initially commands) actions = some config)
    (finished : config.Finished) :
    config.shared.trace = [] ↔ ∀ thread access resource, .acquire access resource ∉ commands thread := by
  constructor
  · intro empty thread access resource acquires
    obtain ⟨history, tells, performed⟩ := tells_of_run injective reached
    obtain ⟨value, ended⟩ := finished thread
    have own := tells.events thread
    rw [empty, performed.of_done ended, initial_script] at own
    exact emitted_of_acquire acquires own.symm
  · intro idle
    obtain ⟨history, shows, -⟩ := shows_of_run reached
    refine List.eq_nil_iff_forall_not_mem.mpr fun event member => ?_
    obtain ⟨thread, isEmitted⟩ := shows event member
    rw [effects_of_idle (idle thread)] at isEmitted
    exact List.not_mem_nil isEmitted

end Runs

/-! ## The results -/

variable (test : Test)

theorem probeThreadId_injective : Function.Injective (@probeThreadId test.threads) := by
  intro one other same
  have below := test.valid.2
  have values := congrArg UInt64.toNat same
  rw [probeThreadId, probeThreadId, UInt64.toNat_ofNat_of_lt', UInt64.toNat_ofNat_of_lt'] at values
  · exact Fin.ext values
  · have := other.2; simp only [UInt64.size]; omega
  · have := one.2; simp only [UInt64.size]; omega

theorem assertClean_iff (result : VerifyResult) : assertClean result = .passed ↔ result.verdict.isBug = false := by
  rw [assertClean]
  cases result.verdict <;> simp [ReferenceVerdict.isBug]

theorem assertBug_iff (result : VerifyResult) : assertBug result = .passed ↔ result.verdict.isBug = true := by
  rw [assertBug]
  cases result.verdict <;> simp [ReferenceVerdict.isBug]

theorem locks_of_reversed {test : Test} (reversed : ReversedNesting test.commands) : Locks test := by
  obtain ⟨one, -, first, -, ⟨before, access, resource, later, split, -⟩, -⟩ := reversed
  refine ⟨one, access, resource, ?_⟩
  rw [split]
  exact List.mem_append_right _ List.mem_cons_self

/-- What the function must do for the test to pass. -/
def Passes : Prop :=
  match test.expected with
  | none => ¬ ReversedNesting test.commands
  | some .clean => Locks test ∧ ¬ ReversedNesting test.commands
  | some .bug => ReversedNesting test.commands

/-- The outcome by what was captured. -/
theorem outcome_iff {test : Test} {events : List ProbeEvent} (locks : events = [] ↔ ¬ Locks test)
    (verdict : (runVerificationFrom events test.targetName test.config).verdict.isBug = true ↔
      ReversedNesting test.commands) : test.outcome events = .passed ↔ Passes test := by
  rw [Test.outcome, Passes]
  by_cases empty : events = []
  · have unlocked := locks.mp empty
    have ordered : ¬ ReversedNesting test.commands := fun reversed => unlocked (locks_of_reversed reversed)
    rw [if_pos (by rw [empty]; rfl)]
    rcases test.expected with - | - | - <;> simp [unlocked, ordered]
  · have isLocked : Locks test := not_not.mp fun unlocked => empty (locks.mpr unlocked)
    rw [if_neg (by simpa using empty)]
    rcases test.expected with - | - | -
    · exact (assertClean_iff _).trans (by rw [← verdict, Bool.not_eq_true])
    · exact (assertClean_iff _).trans (by rw [← verdict, Bool.not_eq_true, and_iff_right isLocked])
    · exact (assertBug_iff _).trans verdict

theorem passed_of_captured {test : Test} (once : ∀ worker, reenters [] (test.commands worker) = false)
    {events : List ProbeEvent} (captured : test.Captured events) : test.outcome events = .passed ↔ Passes test := by
  obtain ⟨actions, state, reached, ended⟩ := captured
  obtain ⟨schedule, final, reached, finished, rfl⟩ := finished_of_run (proper_initial test) reached ended
  have injective := probeThreadId_injective test
  refine outcome_iff ?_ (isBug_iff_reversedNesting injective once reached finished test.targetName test.config)
  rw [trace_eq_nil_iff injective reached finished]
  simp only [Locks, not_exists]

/-- A worker waits for a real lock that another one has in its way. -/
def WaitsFor {threads : ℕ} (state : State threads) (one other : Fin threads) : Prop :=
  state.capture.pcs (tid one) = .idle ∧ ∃ resource access how rest,
    state.program one = .call (.take resource access) rest ∧ (other, resource, how) ∈ state.holders ∧
      access.conflicts how = true

theorem WaitsFor.blocked {threads : ℕ} {state : State threads} {one other : Fin threads}
    (waits : WaitsFor state one other) : BlockedBy (view state) one other := by
  obtain ⟨idle, resource, access, how, rest, running, holder, conflict⟩ := waits
  refine ⟨resource, access, how, ⟨rest, ?_⟩, holder, conflict⟩
  change unsent (state.capture.pcs (tid one)) (state.program one) = _
  rw [idle, running]
  rfl

/-- **The outcome is settled by the function.** Any two schedules that end have the same outcome: the test passes
exactly if its function nests no two locks the wrong way round, or does so where the bug was expected. -/
theorem outcomes_agree (once : ∀ worker, reenters [] (test.commands worker) = false) {events events' : List ProbeEvent}
    (captured : test.Captured events) (captured' : test.Captured events') :
    test.outcome events = test.outcome events' ∧ (test.outcome events = .passed ↔ Passes test) := by
  have one := passed_of_captured once captured
  have other := passed_of_captured once captured'
  refine ⟨?_, one⟩
  have same := one.trans other.symm
  cases left : test.outcome events <;> cases right : test.outcome events' <;> simp [left, right] at same ⊢

/-- Two workers that lock two tracked mutexes in opposite orders. -/
def opposite : Test where
  threads := 2
  valid := by decide
  commands worker :=
    if worker = 0 then [.acquire .lock "a", .acquire .lock "b"] else [.acquire .lock "b", .acquire .lock "a"]
  tracked := by
    intro worker access resource acquires
    split at acquires <;> simp at acquires <;> rcases acquires with ⟨rfl, -⟩ | ⟨rfl, -⟩ <;> rfl
  targetName := "opposite"
  expected := none
  config := ⟨500, true, "."⟩

theorem opposite_once : ∀ worker, reenters [] (opposite.commands worker) = false := by decide

/-- What a worker emits that runs alone. -/
def alone (worker : Fin 2) : List ProbeEvent :=
  let (outer, inner) := if worker = 0 then ("a", "b") else ("b", "a")
  [.lockAcquired (probeThreadId worker) outer, .lockAcquired (probeThreadId worker) inner,
    .lockReleased (probeThreadId worker) inner, .lockReleased (probeThreadId worker) outer]

/-- One worker after the other. -/
def inTurn (first : Fin 2) : List (System.Action (Fin 2) Empty Unit) :=
  List.replicate 10 (.advance first ()) ++ List.replicate 10 (.advance (1 - first) ())

theorem opposite_captured (first : Fin 2) : opposite.Captured (alone first ++ alone (1 - first)) := by
  obtain ⟨final, reached, finished, same⟩ : ∃ final,
      run? (lockPrograms probeThreadId).step (initially opposite.commands) (inTurn first) = some final ∧
        final.Finished ∧ final.shared.trace = alone first ++ alone (1 - first) := by
    match first with
    | 0 | 1 =>
      refine ⟨_, rfl, ?_, ?_⟩
      · exact Fin.forall_fin_two.mpr ⟨⟨(), rfl⟩, ⟨(), rfl⟩⟩
      · rfl
  exact same ▸ captured_of_run reached finished

theorem outcomes_agree_opposite : opposite.outcome (alone 0 ++ alone 1) = opposite.outcome (alone 1 ++ alone 0) ∧
    (opposite.outcome (alone 0 ++ alone 1) = .passed ↔ Passes opposite) :=
  outcomes_agree opposite opposite_once (opposite_captured 0) (opposite_captured 1)

/-- **Hangs are predicted.** If some schedule leads a test to where two workers wait for each other, every schedule of
it that ends is failed, or passed as the bug that was expected. -/
theorem hang_predicted (once : ∀ worker, reenters [] (test.commands worker) = false)
    {actions : List (Action test.threads)} {state : State test.threads}
    (reached : run? step test.initial actions = some state) {one other : Fin test.threads}
    (waits : WaitsFor state one other) (waits' : WaitsFor state other one) {events : List ProbeEvent}
    (captured : test.Captured events) : test.outcome events = .passed ↔ test.expected = some .bug := by
  obtain ⟨-, schedule, reached⟩ := refines_of_run (proper_initial test) reached
  have reversed : ReversedNesting test.commands :=
    reversedNesting_of_deadlock (probeThreadId_injective test) reached waits.blocked waits'.blocked
  rw [passed_of_captured once captured, Passes]
  rcases test.expected with - | - | - <;> simp [reversed]

/-- Each worker takes its first lock and goes on to the second one. -/
def oppositeHang : List (Action 2) :=
  [.capture (.beginLock 0), .capture (.beginReset 0), .capture (.beginSlotLock 0), .capture (.beginInstall 0),
    .capture (.beginSpawn 0), .begun, .spawn, .spawn] ++ (List.finRange 2).flatMap fun worker =>
    [.work worker, .work worker, .work worker, .capture (.emitCheckGlobal (tid worker)),
      .capture (.emitSlotLock (tid worker)), .capture (.emitSend (tid worker)), .work worker]

theorem hang_predicted_opposite : opposite.outcome (alone 0 ++ alone 1) = .passed ↔ opposite.expected = some .bug := by
  obtain ⟨state, reached, waits, waits'⟩ : ∃ state, run? step opposite.initial oppositeHang = some state ∧
      WaitsFor state (0 : Fin 2) (1 : Fin 2) ∧ WaitsFor state (1 : Fin 2) (0 : Fin 2) :=
    ⟨_, rfl, ⟨rfl, "b", .lock, .lock, _, rfl, List.mem_cons_self, rfl⟩,
      ⟨rfl, "a", .lock, .lock, _, rfl, List.mem_cons_of_mem _ List.mem_cons_self, rfl⟩⟩
  exact hang_predicted opposite opposite_once reached waits waits' (opposite_captured 0)

/-- **Tests of ordered locks end, and pass.** Where no lock of a test's function precedes itself, every state that the
test can reach leads to its end, and however it ends, it passes unless a bug was expected, or a clean function that uses
no lock at all. -/
theorem ordered_test_passes (ordered : ∀ resource, ¬ Relation.TransGen (Precedes test.commands) resource resource) :
    (∀ actions state, run? step test.initial actions = some state →
      Leads step (fun last => ∃ events, last.stage = .finished events) state) ∧
    ∀ events, test.Captured events → (test.outcome events = .passed ↔
      test.expected ≠ some .bug ∧ (test.expected = some .clean → Locks test)) := by
  have clean := not_reversedNesting_of_ordered ordered
  constructor
  · intro actions state reached
    obtain ⟨-, past, before⟩ := refines_of_run (proper_initial test) reached
    obtain ⟨rest, final, whole, finished⟩ := finishes_of_ordered (probeThreadId_injective test) ordered before
    have onward : run? (lockPrograms probeThreadId).step (view state) rest = some final := by
      rw [run?_append] at whole
      obtain ⟨middle, same, onward⟩ := Option.bind_eq_some_iff.mp whole
      obtain rfl := Option.some.inj (before.symm.trans same)
      exact onward
    obtain ⟨more, last, ends, stage⟩ := (stands_of_run reached).realizes onward finished
    exact ⟨more, last, ends, final.shared.trace, stage⟩
  · intro events captured
    rw [passed_of_captured (once_of_ordered ordered) captured, Passes]
    rcases test.expected with - | - | - <;> simp [clean]

/-- Two workers that lock two tracked mutexes in the same order. -/
def inOrder : Test where
  threads := 2
  valid := by decide
  commands _ := [.acquire .lock "a", .acquire .lock "b"]
  tracked := by
    intro worker access resource acquires
    simp at acquires
    rcases acquires with ⟨rfl, -⟩ | ⟨rfl, -⟩ <;> rfl
  targetName := "inOrder"
  expected := some .clean
  config := ⟨500, true, "."⟩

theorem inOrder_ordered (resource : String) : ¬ Relation.TransGen (Precedes inOrder.commands) resource resource := by
  refine acyclic_of_rank (fun resource => if resource = "a" then 0 else 1) ?_ resource
  rintro first second ⟨worker, edge, nests, rfl, rfl⟩
  simp only [inOrder, nests_cons, nests_nil, after, List.mem_cons, List.not_mem_nil, or_false, Command.acquire.injEq,
    false_and, exists_false, and_false, exists_eq_left, false_or] at nests
  obtain ⟨access, resource, ⟨rfl, rfl⟩, rfl⟩ := nests
  decide

theorem ordered_test_passes_inOrder :
    (∀ actions state, run? step inOrder.initial actions = some state →
      Leads step (fun last => ∃ events, last.stage = .finished events) state) ∧
    ∃ events, events.length = 8 ∧ inOrder.outcome events = .passed := by
  have result := ordered_test_passes inOrder inOrder_ordered
  have reached : run? (lockPrograms probeThreadId).step (initially inOrder.commands) (inTurn 0) = some _ := rfl
  have captured := captured_of_run reached (Fin.forall_fin_two.mpr ⟨⟨(), rfl⟩, ⟨(), rfl⟩⟩)
  exact ⟨result.1, _, rfl, (result.2 _ captured).mpr ⟨nofun, fun _ => ⟨(0 : Fin 2), .lock, "a", List.mem_cons_self⟩⟩⟩

end Laplace.Soundness.VerifyTest
