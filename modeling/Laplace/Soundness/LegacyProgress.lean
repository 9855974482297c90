import Mathlib.Algebra.Order.BigOperators.Group.List
import Mathlib.Algebra.Order.Group.Nat
import Mathlib.Algebra.GroupWithZero.Nat
import Laplace.Model.LegacyHarness

/-! # When the legacy harnesses hang

Every step of a legacy test makes it smaller, so that each run can be continued until no thread can move.
What decides is whether the test thread can be done by then. The test of `axiom_target` can as long as
all events fit into the channel, which it drains after it has joined; the test of `laplace_byoc_test`
never can once a worker has registered, since nothing takes the sender out of the process-wide slot.
-/

namespace Laplace.Soundness.Legacy

open Laplace.Machine Laplace.Model.Legacy

variable {capacity : ℕ} {state next : State}

/-- Replacing one worker changes a total by its own part. -/
theorem total_set {workers : List Worker} {index : ℕ} {old : Worker} (weight : Worker → ℕ)
    (isOld : workers[index]? = some old) (new : Worker) :
    ((workers.set index new).map weight).sum + weight old = (workers.map weight).sum + weight new := by
  induction workers generalizing index with
  | nil => cases isOld
  | cons first rest ih =>
    cases index with
    | zero =>
      obtain rfl := Option.some.inj isOld
      simp only [List.set_cons_zero, List.map_cons, List.sum_cons]
      omega
    | succ index =>
      have inner := ih isOld
      simp only [List.set_cons_succ, List.map_cons, List.sum_cons]
      omega

/-- The steps a worker has before it, with one for each event in the channel. -/
def workerWork : Worker → ℕ
  | .spawned events => 2 * events + 3
  | .registering events => 2 * events + 2
  | .emitting events => 2 * events + 1
  | .exited => 0

def mainWork : MainStep → ℕ
  | .spawn events => 2 * events + 4
  | _ => 1

/-- An upper bound of the steps that are left. -/
def work (state : State) : ℕ :=
  (state.main.map mainWork).sum + (state.workers.map workerWork).sum + state.buffered

/-- What one step of a worker can do. -/
theorem workerStep_cases {index : ℕ} (stepped : workerStep capacity state index = some next) :
    (∃ events, state.workers[index]? = some (.spawned events) ∧
      next = { state with workers := state.workers.set index (.registering events) }) ∨
    (∃ events, state.workers[index]? = some (.registering events) ∧
      next = { state with workers := state.workers.set index (.emitting events), globalProbeSender := true }) ∨
    (∃ events, state.workers[index]? = some (.emitting (events + 1)) ∧ state.hasRoom capacity = true ∧
      next = { state with workers := state.workers.set index (.emitting events), buffered := state.buffered + 1 }) ∨
    (state.workers[index]? = some (.emitting 0) ∧
      next = { state with workers := state.workers.set index .exited }) := by
  unfold workerStep at stepped
  split at stepped
  · next events here =>
    exact .inl ⟨events, here, (Option.some.inj stepped).symm⟩
  · next events here =>
    exact .inr (.inl ⟨events, here, (Option.some.inj stepped).symm⟩)
  · next events here =>
    split at stepped
    · next room => exact .inr (.inr (.inl ⟨events, here, room, (Option.some.inj stepped).symm⟩))
    · cases stepped
  · next here =>
    exact .inr (.inr (.inr ⟨here, (Option.some.inj stepped).symm⟩))
  · cases stepped
  · cases stepped

/-- What one step of the test thread can do. -/
theorem mainStep_cases (stepped : mainStep state = some next) :
    (∃ events rest, state.main = .spawn events :: rest ∧
      next = { state with main := rest, workers := state.workers ++ [.spawned events] }) ∨
    (∃ index rest, state.main = .join index :: rest ∧ state.workers[index]? = some .exited ∧
      next = { state with main := rest }) ∨
    (∃ rest, state.main = .dropTx :: rest ∧ next = { state with main := rest, tx := false }) ∨
    (∃ rest, state.main = .clearProbeSender :: rest ∧
      next = { state with main := rest, globalProbeSender := false }) ∨
    (∃ rest buffered, state.main = .collect :: rest ∧ state.buffered = buffered + 1 ∧
      next = { state with buffered }) ∨
    (∃ rest, state.main = .collect :: rest ∧ state.buffered = 0 ∧ state.hasSender = false ∧
      next = { state with main := rest }) := by
  unfold mainStep at stepped
  split at stepped
  · cases stepped
  · next events rest here =>
    exact .inl ⟨events, rest, here, (Option.some.inj stepped).symm⟩
  · next index rest here =>
    split at stepped
    · next exited => exact .inr (.inl ⟨index, rest, here, exited, (Option.some.inj stepped).symm⟩)
    · cases stepped
  · next rest here => exact .inr (.inr (.inl ⟨rest, here, (Option.some.inj stepped).symm⟩))
  · next rest here => exact .inr (.inr (.inr (.inl ⟨rest, here, (Option.some.inj stepped).symm⟩)))
  · next rest here =>
    split at stepped
    · next buffered isFull =>
      exact .inr (.inr (.inr (.inr (.inl ⟨rest, buffered, here, isFull, (Option.some.inj stepped).symm⟩))))
    · next isEmpty =>
      split at stepped
      · cases stepped
      · next noSender =>
        exact .inr (.inr (.inr (.inr (.inr ⟨rest, here, isEmpty, (Bool.not_eq_true _).mp noSender,
          (Option.some.inj stepped).symm⟩))))

/-- Every step makes the test smaller. -/
theorem work_decreases (state : State) (thread : Thread) (next : State)
    (stepped : step capacity state thread = some next) : work next < work state := by
  cases thread with
  | main =>
    obtain ⟨events, rest, here, rfl⟩ | ⟨index, rest, here, -, rfl⟩ | ⟨rest, here, rfl⟩ | ⟨rest, here, rfl⟩ |
      ⟨rest, buffered, here, isFull, rfl⟩ | ⟨rest, here, isEmpty, -, rfl⟩ := mainStep_cases stepped
    · simp only [work, here, List.map_cons, List.sum_cons, mainWork, List.map_append, List.map_nil, List.sum_append,
        workerWork, List.sum_nil]
      omega
    · simp only [work, here, List.map_cons, List.sum_cons, mainWork]
      omega
    · simp only [work, here, List.map_cons, List.sum_cons, mainWork]
      omega
    · simp only [work, here, List.map_cons, List.sum_cons, mainWork]
      omega
    · simp only [work, isFull]
      omega
    · simp only [work, here, List.map_cons, List.sum_cons, mainWork]
      omega
  | worker index =>
    obtain ⟨events, here, rfl⟩ | ⟨events, here, rfl⟩ | ⟨events, here, -, rfl⟩ | ⟨here, rfl⟩ :=
      workerStep_cases stepped
    · have moved := total_set workerWork here (.registering events)
      simp only [workerWork] at moved
      simp only [work]
      omega
    · have moved := total_set workerWork here (.emitting events)
      simp only [workerWork] at moved
      simp only [work]
      omega
    · have moved := total_set workerWork here (.emitting events)
      simp only [workerWork] at moved
      simp only [work]
      omega
    · have moved := total_set workerWork here .exited
      simp only [workerWork] at moved
      simp only [work]
      omega

/-- A test that can never be done hangs: every run leads to a stuck state. -/
theorem stuck_of_unfinished {start : State}
    (unfinished : ∀ schedule state, run? (step capacity) start schedule = some state → state.main ≠ []) :
    ¬ NeverStuck capacity start := by
  intro never
  obtain ⟨schedule, final, reached, ends⟩ := run?_terminal work work_decreases start
  exact never schedule final reached ⟨unfinished schedule final reached, ends⟩

section ByocTest

/-- Where a worker has registered, the process-wide slot holds a sender until it is cleared; the test is not
done while a sender is left, and the body never clears the slot. -/
structure ByocInvariant (state : State) : Prop where
  registered : ∀ worker ∈ state.workers, (∃ events, worker = .emitting events) ∨ worker = .exited →
    state.globalProbeSender = true
  uncleared : .clearProbeSender ∉ state.main
  started : (∃ events, .spawn events ∈ state.main) ∨ state.workers ≠ []
  unfinished : ∃ before, state.main = before ++ [.collect] ∧ .collect ∉ before

theorem set_registered {workers : List Worker} {index : ℕ} {new : Worker} {slot : Bool}
    (registered : ∀ worker ∈ workers, (∃ events, worker = .emitting events) ∨ worker = .exited → slot = true)
    (placed : (∃ events, new = .emitting events) ∨ new = .exited → slot = true) :
    ∀ worker ∈ workers.set index new, (∃ events, worker = .emitting events) ∨ worker = .exited → slot = true := by
  intro worker member
  rcases List.mem_or_eq_of_mem_set member with old | rfl
  · exact registered worker old
  · exact placed

theorem byoc_worker_keeps {index : ℕ} (holds : ByocInvariant state)
    (stepped : workerStep capacity state index = some next) : ByocInvariant next := by
  have nonempty : ∀ new, state.workers ≠ [] → state.workers.set index new ≠ [] := by
    intro new isNonempty isEmpty
    simp only [List.set_eq_nil_iff] at isEmpty
    exact isNonempty isEmpty
  have started : ∀ new, (∃ events, .spawn events ∈ state.main) ∨ state.workers.set index new ≠ [] :=
    fun new => holds.started.imp id (nonempty new)
  obtain ⟨events, here, rfl⟩ | ⟨events, here, rfl⟩ | ⟨events, here, -, rfl⟩ | ⟨here, rfl⟩ := workerStep_cases stepped
  · refine ⟨set_registered holds.registered ?_, holds.uncleared, started _, holds.unfinished⟩
    rintro (⟨_, same⟩ | same) <;> cases same
  · exact ⟨fun _ _ _ => rfl, holds.uncleared, started _, holds.unfinished⟩
  · refine ⟨set_registered holds.registered fun _ => ?_, holds.uncleared, started _, holds.unfinished⟩
    exact holds.registered _ (List.mem_of_getElem? here) (.inl ⟨_, rfl⟩)
  · refine ⟨set_registered holds.registered fun _ => ?_, holds.uncleared, started _, holds.unfinished⟩
    exact holds.registered _ (List.mem_of_getElem? here) (.inl ⟨_, rfl⟩)

/-- What is left of a program that ends in its only `collect`, after another step. -/
theorem rest_ends {first : MainStep} {rest : List MainStep}
    (ends : ∃ before, first :: rest = before ++ [.collect] ∧ .collect ∉ before) (different : first ≠ .collect) :
    ∃ before, rest = before ++ [.collect] ∧ .collect ∉ before := by
  obtain ⟨before, split, apart⟩ := ends
  cases before with
  | nil => exact absurd (List.cons.inj split).1 different
  | cons _ before => exact ⟨before, (List.cons.inj split).2, fun member => apart (List.mem_cons_of_mem _ member)⟩

/-- A program that ends in its only `collect` and stands at it has nothing else to do. -/
theorem collect_last {rest : List MainStep}
    (ends : ∃ before, .collect :: rest = before ++ [.collect] ∧ .collect ∉ before) : rest = [] := by
  obtain ⟨before, split, apart⟩ := ends
  cases before with
  | nil => exact (List.cons.inj split).2
  | cons first before =>
    obtain ⟨rfl, -⟩ := List.cons.inj split
    exact absurd List.mem_cons_self apart

/-- A worker that has exited had registered, so that the test is not done when its workers are. -/
theorem byoc_sender (holds : ByocInvariant state) (started : state.workers ≠ []) : state.hasSender = true := by
  obtain ⟨worker, member⟩ := List.exists_mem_of_ne_nil _ started
  unfold State.hasSender
  rw [Bool.or_eq_true, Bool.or_eq_true]
  by_cases isExited : worker = .exited
  · exact .inl (.inr (holds.registered worker member (.inr isExited)))
  · exact .inr (List.any_eq_true.mpr ⟨worker, member, decide_eq_true isExited⟩)

theorem byoc_main_keeps (holds : ByocInvariant state) (stepped : mainStep state = some next) :
    ByocInvariant next := by
  have ends := holds.unfinished
  have uncleared := holds.uncleared
  have started := holds.started
  obtain ⟨events, rest, here, rfl⟩ | ⟨index, rest, here, -, rfl⟩ | ⟨rest, here, rfl⟩ | ⟨rest, here, rfl⟩ |
    ⟨rest, buffered, here, isFull, rfl⟩ | ⟨rest, here, isEmpty, noSender, rfl⟩ := mainStep_cases stepped
  · rw [here] at ends uncleared
    refine ⟨?_, fun member => uncleared (List.mem_cons_of_mem _ member), .inr (by simp), rest_ends ends nofun⟩
    intro worker member isRegistered
    rcases List.mem_append.mp member with old | new
    · exact holds.registered worker old isRegistered
    · obtain rfl := List.mem_singleton.mp new
      rcases isRegistered with ⟨_, same⟩ | same <;> cases same
  · rw [here] at ends uncleared started
    refine ⟨holds.registered, fun member => uncleared (List.mem_cons_of_mem _ member), ?_, rest_ends ends nofun⟩
    exact started.imp (fun ⟨events, member⟩ => ⟨events, (List.mem_cons.mp member).resolve_left nofun⟩) id
  · rw [here] at ends uncleared started
    refine ⟨holds.registered, fun member => uncleared (List.mem_cons_of_mem _ member), ?_, rest_ends ends nofun⟩
    exact started.imp (fun ⟨events, member⟩ => ⟨events, (List.mem_cons.mp member).resolve_left nofun⟩) id
  · rw [here] at uncleared
    exact absurd List.mem_cons_self uncleared
  · exact ⟨holds.registered, uncleared, started, holds.unfinished⟩
  · rw [here] at ends started
    obtain rfl := collect_last ends
    have isStarted : state.workers ≠ [] := started.resolve_left (by simp)
    rw [byoc_sender holds isStarted] at noSender
    cases noSender

theorem byoc_start {body : List BodyStep} (starts : ∃ events, .byocThread events ∈ body) :
    ByocInvariant (byocTest body) := by
  obtain ⟨events, member⟩ := starts
  have isMain : ∀ entry ∈ body.map BodyStep.main, entry ≠ .clearProbeSender ∧ entry ≠ .collect := by
    intro entry inBody
    obtain ⟨bodyStep, -, rfl⟩ := List.mem_map.mp inBody
    cases bodyStep <;> exact ⟨nofun, nofun⟩
  refine ⟨nofun, ?_, .inl ⟨events, ?_⟩, body.map BodyStep.main ++ [.dropTx], ?_, ?_⟩
  · intro cleared
    rcases List.mem_append.mp cleared with inBody | atEnd
    · exact (isMain _ inBody).1 rfl
    · simp at atEnd
  · exact List.mem_append_left _ (List.mem_map.mpr ⟨_, member, rfl⟩)
  · simp only [byocTest, List.append_assoc, List.cons_append, List.nil_append]
  · intro collected
    rcases List.mem_append.mp collected with inBody | atEnd
    · exact (isMain _ inBody).2 rfl
    · simp at atEnd

/-- A body that starts a thread makes the test hang. -/
theorem byoc_stuck {body : List BodyStep} (starts : ∃ events, .byocThread events ∈ body) :
    ¬ NeverStuck capacity (byocTest body) := by
  apply stuck_of_unfinished
  intro schedule state reached
  have always : ∀ thread ∈ schedule, True := fun _ _ => trivial
  have holds : ByocInvariant state := by
    refine run?_invariant ByocInvariant (byoc_start starts) (fun state thread next _ holds stepped => ?_) reached always
    cases thread with
    | main => exact byoc_main_keeps holds stepped
    | worker index => exact byoc_worker_keeps holds stepped
  obtain ⟨before, ends, -⟩ := holds.unfinished
  rw [ends]
  simp

/-- A body that starts no thread has none to join. -/
theorem no_joins {body : List BodyStep} {started : ℕ} (joined : joinsAll [] started body = true)
    (starts : ¬ ∃ events, .byocThread events ∈ body) : body = [] := by
  cases body with
  | nil => rfl
  | cons first rest =>
    cases first with
    | byocThread events => exact absurd ⟨events, List.mem_cons_self⟩ starts
    | join index => cases joined

/-- The states of a test without threads. -/
def Threadless (state : State) : Prop :=
  state.workers = [] ∧ state.buffered = 0 ∧ state.globalProbeSender = false ∧
    (state.main = [.dropTx, .collect] ∨ state.main = [.collect] ∧ state.tx = false ∨ state.main = [])

theorem threadless_keeps (thread : Thread) (holds : Threadless state)
    (stepped : step capacity state thread = some next) : Threadless next := by
  obtain ⟨noWorkers, empty, uncleared, main⟩ := holds
  cases thread with
  | worker index =>
    simp only [step, workerStep, noWorkers, List.getElem?_nil, reduceCtorEq] at stepped
  | main =>
    rcases main with atDrop | ⟨atCollect, dropped⟩ | atEnd
    · simp only [step, mainStep, atDrop, Option.some.injEq] at stepped
      subst stepped
      exact ⟨noWorkers, empty, uncleared, .inr (.inl ⟨rfl, rfl⟩)⟩
    · simp only [step, mainStep, atCollect, empty, State.hasSender, noWorkers, uncleared, dropped] at stepped
      cases stepped
      exact ⟨rfl, rfl, rfl, .inr (.inr rfl)⟩
    · simp only [step, mainStep, atEnd, reduceCtorEq] at stepped

/-- Without a thread, the test is done in two steps. -/
theorem byoc_never_stuck : NeverStuck capacity (byocTest []) := by
  intro schedule state reached
  have always : ∀ thread ∈ schedule, True := fun _ _ => trivial
  have holds : Threadless state :=
    run?_invariant Threadless ⟨rfl, rfl, rfl, .inl rfl⟩
      (fun _ thread _ _ holds stepped => threadless_keeps thread holds stepped) reached always
  rintro ⟨unfinished, stuck⟩
  obtain ⟨noWorkers, empty, uncleared, main⟩ := holds
  have blocked := stuck .main
  rcases main with atDrop | ⟨atCollect, dropped⟩ | atEnd
  · simp only [step, mainStep, atDrop, reduceCtorEq] at blocked
  · simp [step, mainStep, atCollect, empty, State.hasSender, noWorkers, uncleared, dropped] at blocked
  · exact unfinished atEnd

end ByocTest

section AxiomTarget

variable {events : List ℕ}

/-- The events that a worker still has to emit. -/
def pending : Worker → ℕ
  | .spawned events | .registering events | .emitting events => events
  | .exited => 0

/-- The events in the channel and those still to come. -/
def outstanding (state : State) : ℕ := state.buffered + (state.workers.map pending).sum

/-- The end of the program of the test thread. -/
def epilogue : List MainStep := [.clearProbeSender, .collect]

theorem hasRoom_iff : state.hasRoom axiomTargetBuffer = true ↔ state.buffered < axiomTargetBuffer := by
  have buffers : (axiomTargetBuffer == 0) = false := rfl
  rw [State.hasRoom, buffers, Bool.false_and, Bool.false_and, Bool.or_false]
  exact decide_eq_true_iff

/-- Where the test of `axiom_target` stands. The channel is drained only once all events fit into it. -/
inductive AxiomAt (events : List ℕ) (state : State) : Prop
  | spawning (todo : List ℕ)
      (main : state.main = todo.map .spawn ++ .dropTx :: ((List.range' 0 events.length).map .join ++ epilogue))
      (started : state.workers.length + todo.length = events.length)
      (ledger : outstanding state + todo.sum = events.sum) (bounded : state.buffered ≤ axiomTargetBuffer)
  | joining (joined waiting : ℕ) (main : state.main = (List.range' joined waiting).map .join ++ epilogue)
      (counted : joined + waiting = events.length) (started : state.workers.length = events.length)
      (exited : ∀ index < joined, state.workers[index]? = some .exited) (dropped : state.tx = false)
      (ledger : outstanding state = events.sum) (bounded : state.buffered ≤ axiomTargetBuffer)
  | draining (main : state.main = [.collect]) (exited : ∀ worker ∈ state.workers, worker = .exited)
      (dropped : state.tx = false) (cleared : state.globalProbeSender = false)
      (fits : events.sum ≤ axiomTargetBuffer)
  | finished (main : state.main = []) (fits : events.sum ≤ axiomTargetBuffer)

/-- What a step of a worker leaves alone. -/
structure WorkerMoved (state next : State) : Prop where
  main : next.main = state.main
  tx : next.tx = state.tx
  length : next.workers.length = state.workers.length
  exited : ∀ index : ℕ, state.workers[index]? = some .exited → next.workers[index]? = some .exited
  ledger : outstanding next = outstanding state
  bounded : state.buffered ≤ axiomTargetBuffer → next.buffered ≤ axiomTargetBuffer

theorem exited_set {workers : List Worker} {index : ℕ} {old new : Worker} (isOld : workers[index]? = some old)
    (running : old ≠ .exited) (other : ℕ) (exited : workers[other]? = some .exited) :
    (workers.set index new)[other]? = some .exited := by
  have different : index ≠ other := by
    rintro rfl
    exact running (Option.some.inj (isOld.symm.trans exited))
  rw [List.getElem?_set_ne different, exited]

theorem workerStep_moved {index : ℕ} (stepped : workerStep axiomTargetBuffer state index = some next) :
    WorkerMoved state next := by
  obtain ⟨events, here, rfl⟩ | ⟨events, here, rfl⟩ | ⟨events, here, room, rfl⟩ | ⟨here, rfl⟩ :=
    workerStep_cases stepped
  · have moved := total_set pending here (.registering events)
    refine ⟨rfl, rfl, List.length_set, exited_set here nofun, ?_, id⟩
    simp only [pending] at moved
    simp only [outstanding]
    omega
  · have moved := total_set pending here (.emitting events)
    refine ⟨rfl, rfl, List.length_set, exited_set here nofun, ?_, id⟩
    simp only [pending] at moved
    simp only [outstanding]
    omega
  · have moved := total_set pending here (.emitting events)
    refine ⟨rfl, rfl, List.length_set, exited_set here nofun, ?_, fun _ => hasRoom_iff.mp room⟩
    simp only [pending] at moved
    simp only [outstanding]
    omega
  · have moved := total_set pending here .exited
    refine ⟨rfl, rfl, List.length_set, exited_set here nofun, ?_, id⟩
    simp only [pending] at moved
    simp only [outstanding]
    omega

/-- A worker that can step has not exited. -/
theorem workerStep_running {index : ℕ} (stepped : workerStep capacity state index = some next) :
    ∃ worker ∈ state.workers, worker ≠ .exited := by
  obtain ⟨events, here, -⟩ | ⟨events, here, -⟩ | ⟨events, here, -, -⟩ | ⟨here, -⟩ := workerStep_cases stepped <;>
    exact ⟨_, List.mem_of_getElem? here, nofun⟩

theorem axiom_worker_keeps {index : ℕ} (holds : AxiomAt events state)
    (stepped : workerStep axiomTargetBuffer state index = some next) : AxiomAt events next := by
  have moved := workerStep_moved stepped
  cases holds with
  | spawning todo main started ledger bounded =>
    exact .spawning todo (moved.main.trans main) (by rw [moved.length, started]) (by rw [moved.ledger, ledger])
      (moved.bounded bounded)
  | joining joined waiting main counted started exited dropped ledger bounded =>
    exact .joining joined waiting (moved.main.trans main) counted (moved.length.trans started)
      (fun index below => moved.exited index (exited index below)) (moved.tx.trans dropped)
      (moved.ledger.trans ledger) (moved.bounded bounded)
  | draining main exited =>
    obtain ⟨worker, member, running⟩ := workerStep_running stepped
    exact absurd (exited worker member) running
  | finished main fits => exact .finished (moved.main.trans main) fits

/-- Once every worker has exited, all events are in the channel. -/
theorem outstanding_exited (exited : ∀ worker ∈ state.workers, worker = .exited) :
    outstanding state = state.buffered := by
  have none : (state.workers.map pending).sum = 0 := by
    refine List.sum_eq_zero fun amount member => ?_
    obtain ⟨worker, isWorker, rfl⟩ := List.mem_map.mp member
    rw [exited worker isWorker]
    rfl
  rw [outstanding, none, Nat.add_zero]

theorem all_exited {joined : ℕ} (all : joined = state.workers.length)
    (exited : ∀ index < joined, state.workers[index]? = some .exited) : ∀ worker ∈ state.workers, worker = .exited := by
  intro worker member
  obtain ⟨index, below, rfl⟩ := List.mem_iff_getElem.mp member
  have isExited := exited index (by omega)
  rw [List.getElem?_eq_getElem below] at isExited
  exact Option.some.inj isExited

theorem axiom_main_keeps (holds : AxiomAt events state) (stepped : mainStep state = some next) :
    AxiomAt events next := by
  cases holds with
  | spawning todo main started ledger bounded =>
    cases todo with
    | nil =>
      simp only [mainStep, main, List.map_nil, List.nil_append, Option.some.injEq] at stepped
      subst stepped
      refine .joining 0 events.length rfl (Nat.zero_add _) started nofun rfl ?_ bounded
      exact ledger
    | cons amount todo =>
      simp only [mainStep, main, List.map_cons, List.cons_append, Option.some.injEq] at stepped
      subst stepped
      refine .spawning todo rfl ?_ ?_ bounded
      · rw [List.length_append, ← started, List.length_cons, List.length_cons, List.length_nil]
        omega
      · simp only [outstanding, List.map_append, List.map_cons, List.map_nil, List.sum_append, List.sum_cons,
          List.sum_nil, pending] at ledger ⊢
        omega
  | joining joined waiting main counted started exited dropped ledger bounded =>
    cases waiting with
    | zero =>
      have gone := all_exited (by omega) exited
      simp only [mainStep, main, List.range'_zero, List.map_nil, List.nil_append, epilogue, Option.some.injEq] at stepped
      subst stepped
      refine .draining rfl gone dropped rfl ?_
      rw [← ledger, outstanding_exited gone]
      exact bounded
    | succ waiting =>
      simp only [mainStep, main, List.range'_succ, List.map_cons, List.cons_append] at stepped
      split at stepped
      · next isExited =>
        obtain rfl := Option.some.inj stepped
        refine .joining (joined + 1) waiting rfl (by omega) started (fun index below => ?_) dropped ledger bounded
        rcases Nat.lt_succ_iff_lt_or_eq.mp below with earlier | rfl
        · exact exited index earlier
        · exact isExited
      · cases stepped
  | draining main exited dropped cleared fits =>
    simp only [mainStep, main] at stepped
    split at stepped
    · obtain rfl := Option.some.inj stepped
      exact .draining rfl exited dropped cleared fits
    · split at stepped
      · cases stepped
      · obtain rfl := Option.some.inj stepped
        exact .finished rfl fits
  | finished main fits => simp only [mainStep, main, reduceCtorEq] at stepped

theorem axiom_reached {schedule : List Thread}
    (reached : run? (step axiomTargetBuffer) (axiomTarget events) schedule = some state) : AxiomAt events state := by
  have always : ∀ thread ∈ schedule, True := fun _ _ => trivial
  have initially : AxiomAt events (axiomTarget events) := by
    refine .spawning events rfl (Nat.zero_add _) ?_ (Nat.zero_le _)
    simp only [outstanding, axiomTarget, List.map_nil, List.sum_nil, Nat.add_zero, Nat.zero_add]
  refine run?_invariant (AxiomAt events) initially (fun state thread next _ holds stepped => ?_) reached always
  cases thread with
  | main => exact axiom_main_keeps holds stepped
  | worker index => exact axiom_worker_keeps holds stepped

/-- More events than the channel holds make the test hang. -/
theorem axiom_stuck (tooMany : ¬ events.sum ≤ axiomTargetBuffer) :
    ¬ NeverStuck axiomTargetBuffer (axiomTarget events) := by
  apply stuck_of_unfinished
  intro schedule state reached
  cases axiom_reached reached with
  | spawning todo main => simp [main]
  | joining joined waiting main => simp [main, epilogue]
  | draining main => simp [main]
  | finished main fits => exact absurd fits tooMany

/-- The part of one worker in the events still to come. -/
theorem pending_le {workers : List Worker} {index : ℕ} {worker : Worker} (here : workers[index]? = some worker) :
    pending worker ≤ (workers.map pending).sum :=
  List.le_sum_of_mem (List.mem_map.mpr ⟨worker, List.mem_of_getElem? here, rfl⟩)

/-- While all events fit into the channel, a worker that has not exited can step. -/
theorem worker_steps {index : ℕ} {worker : Worker} (here : state.workers[index]? = some worker)
    (running : worker ≠ .exited) (fits : outstanding state ≤ axiomTargetBuffer) :
    workerStep axiomTargetBuffer state index ≠ none := by
  have part := pending_le here
  unfold workerStep
  rw [here]
  cases worker with
  | spawned | registering => nofun
  | exited => exact absurd rfl running
  | emitting amount =>
    cases amount with
    | zero => nofun
    | succ amount =>
      have room : state.hasRoom axiomTargetBuffer = true := by
        rw [hasRoom_iff]
        simp only [pending, outstanding] at part fits
        omega
      simp only [room, if_true]
      nofun

/-- As long as all events fit into the channel, some thread can move until the test is done. -/
theorem axiom_never_stuck (fits : events.sum ≤ axiomTargetBuffer) :
    NeverStuck axiomTargetBuffer (axiomTarget events) := by
  rintro schedule state reached ⟨unfinished, stuck⟩
  have blocked := stuck .main
  cases axiom_reached reached with
  | spawning todo main started ledger bounded =>
    cases todo <;>
      simp only [step, mainStep, main, List.map_nil, List.map_cons, List.nil_append, List.cons_append,
        reduceCtorEq] at blocked
  | joining joined waiting main counted started exited dropped ledger bounded =>
    cases waiting with
    | zero =>
      simp only [step, mainStep, main, List.range'_zero, List.map_nil, List.nil_append, epilogue, reduceCtorEq] at blocked
    | succ waiting =>
      have below : joined < state.workers.length := by omega
      have here := List.getElem?_eq_getElem below
      simp only [step, mainStep, main, List.range'_succ, List.map_cons, List.cons_append] at blocked
      by_cases isExited : state.workers[joined] = .exited
      · rw [here, isExited, if_pos rfl] at blocked
        cases blocked
      · exact worker_steps here isExited (ledger ▸ fits) (stuck (.worker joined))
  | draining main exited dropped cleared =>
    have noSender : state.hasSender = false := by
      simp only [State.hasSender, dropped, cleared, Bool.false_or, List.any_eq_false, decide_eq_true_eq, not_not]
      exact exited
    simp only [step, mainStep, main, noSender, Bool.false_eq_true, if_false] at blocked
    split at blocked <;> cases blocked
  | finished main => exact unfinished main

end AxiomTarget

/-- **Progress of the legacy harnesses.** The test of `axiom_target` never hangs exactly when its threads emit
no more events together than the channel holds; the test of `laplace_byoc_test` never hangs exactly when
its body starts no thread. -/
theorem legacy_never_stuck_iff (events : List ℕ) (buffer : ℕ) (body : List BodyStep)
    (joined : joinsAll [] 0 body = true) :
    (NeverStuck axiomTargetBuffer (axiomTarget events) ↔ events.sum ≤ axiomTargetBuffer) ∧
      (NeverStuck buffer (byocTest body) ↔ ¬ ∃ events, .byocThread events ∈ body) := by
  refine ⟨⟨fun never => ?_, axiom_never_stuck⟩, ⟨fun never => ?_, fun starts => ?_⟩⟩
  · by_contra tooMany
    exact axiom_stuck tooMany never
  · exact fun starts => byoc_stuck starts never
  · rw [no_joins joined starts]
    exact byoc_never_stuck

theorem legacy_never_stuck_small :
    NeverStuck axiomTargetBuffer (axiomTarget [4000, 96]) ∧ joinsAll [] 0 [] = true ∧ NeverStuck 0 (byocTest []) :=
  ⟨(legacy_never_stuck_iff [4000, 96] 0 [] rfl).1.mpr (by decide), rfl,
    (legacy_never_stuck_iff [] 0 [] rfl).2.mpr fun ⟨_, member⟩ => nomatch member⟩

/-- One worker that emits one event more than the channel holds, and one `byoc_thread!` that emits nothing. -/
theorem legacy_harnesses_hang :
    ¬ NeverStuck axiomTargetBuffer (axiomTarget [4097]) ∧
      ¬ NeverStuck 8192 (byocTest [.byocThread 0, .join 0]) :=
  ⟨axiom_stuck (by decide), byoc_stuck ⟨0, List.mem_cons_self⟩⟩

end Laplace.Soundness.Legacy
