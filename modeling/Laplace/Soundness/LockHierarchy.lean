import Laplace.Soundness.DeadlockPrediction
import Laplace.Soundness.ReaderCycles

/-! # Locks that are acquired in an order

If no lock comes before itself in the order in which the threads nest their locks, no schedule gets stuck, for any
number of threads: of instrumented locks, whose captures are then clean, and of model read-write locks, even where a
hook makes an exclusive acquisition of every read.
-/

namespace Laplace.Soundness.LockPrograms

open Laplace.Machine Laplace.Model Laplace.Model.LockPrograms

variable {Thread : Type}

/-- Some thread acquires the second lock while it holds the first one. -/
def Precedes (commands : Thread → List Command) (first second : String) : Prop :=
  ∃ thread edge, Nests [] (commands thread) edge ∧ edge.held = first ∧ edge.acquired = second

/-- A thread that acquires a lock again nests it in itself. -/
theorem nests_of_reenters {held : Held} {commands : List Command} (again : reenters held commands = true) :
    ∃ edge, Nests held commands edge ∧ edge.held = edge.acquired := by
  induction commands generalizing held with
  | nil => cases again
  | cons command commands ih =>
    simp only [nests_cons]
    cases command with
    | acquire access resource =>
      rcases (Bool.or_eq_true _ _).mp again with here | later
      · obtain ⟨hold, isHeld, same⟩ := List.any_eq_true.mp here
        exact ⟨_, .inl ⟨access, resource, rfl, hold, isHeld, rfl⟩, beq_iff_eq.mp same⟩
      · obtain ⟨edge, nests, same⟩ := ih later
        exact ⟨edge, .inr nests, same⟩
    | drop resource =>
      obtain ⟨edge, nests, same⟩ := ih again
      exact ⟨edge, .inr nests, same⟩

/-- The lock that a thread waits for, if it waits for one. -/
def wanted (config : Config Thread) (thread : Thread) : String :=
  match config.program thread with
  | .call (.take resource _) _ => resource
  | _ => ""

theorem Wants.wanted_eq {config : Config Thread} {thread : Thread} {resource : String} {access : Access}
    (wants : Wants config thread resource access) : wanted config thread = resource := by
  obtain ⟨rest, running⟩ := wants
  rw [wanted, running]

theorem once_of_ordered {commands : Thread → List Command}
    (ordered : ∀ resource, ¬ Relation.TransGen (Precedes commands) resource resource) (thread : Thread) :
    reenters [] (commands thread) = false := by
  rw [Bool.eq_false_iff]
  intro again
  obtain ⟨edge, nests, same⟩ := nests_of_reenters again
  exact ordered edge.held (.single ⟨thread, edge, nests, rfl, same.symm⟩)

theorem not_reversedNesting_of_ordered {commands : Thread → List Command}
    (ordered : ∀ resource, ¬ Relation.TransGen (Precedes commands) resource resource) : ¬ ReversedNesting commands := by
  rintro ⟨one, other, first, second, left, right, held, acquired, -⟩
  exact ordered first.held (.tail (.single ⟨one, first, left, rfl, rfl⟩) ⟨other, second, right, held, acquired⟩)

/-- Threads whose locks are ordered can go on to their end. -/
theorem finishes_of_ordered [Fintype Thread] [DecidableEq Thread] {threadId : Thread → UInt64}
    {commands : Thread → List Command} (injective : Function.Injective threadId)
    (ordered : ∀ resource, ¬ Relation.TransGen (Precedes commands) resource resource)
    {past : List (System.Action Thread Empty Unit)} {config : Config Thread}
    (reached : run? (lockPrograms threadId).step (initially commands) past = some config) :
    ∃ rest last, run? (lockPrograms threadId).step (initially commands) (past ++ rest) = some last ∧ last.Finished := by
  refine System.finishes_of_run (scripted threadId) (fun actions config reached stuck => ?_) reached
  obtain ⟨history, tells, performed⟩ := tells_of_run injective reached
  have once := once_of_ordered ordered
  -- a stuck thread wants a lock that precedes what another stuck thread wants
  have behind : ∀ thread, Unfinished config thread →
      ∃ other, Unfinished config other ∧ Precedes commands (wanted config thread) (wanted config other) := by
    intro thread unfinished
    obtain ⟨other, -, blocked, waits⟩ := waits_of_stuck injective once reached stuck unfinished
    obtain ⟨third, -, ⟨resource', access', how', wants', -⟩, -⟩ := waits_of_stuck injective once reached stuck waits
    obtain ⟨resource, access, how, wants, holder, -⟩ := blocked
    refine ⟨other, waits, ?_⟩
    rw [wants.wanted_eq, wants'.wanted_eq]
    exact ⟨other, _, tells.nests performed wants' holder, rfl, rfl⟩
  intro thread
  by_contra unfinished
  exact none_waits (wanted config) ordered behind thread fun value done => unfinished ⟨value, done⟩

/-- **Ordered locks.** Where no lock precedes itself, every capture is clean, and every run can be continued to where
all threads are done. -/
theorem ordered_locks_finish [Fintype Thread] [DecidableEq Thread] {threadId : Thread → UInt64}
    {commands : Thread → List Command} (injective : Function.Injective threadId)
    (ordered : ∀ resource, ¬ Relation.TransGen (Precedes commands) resource resource)
    {past : List (System.Action Thread Empty Unit)} {config : Config Thread}
    (reached : run? (lockPrograms threadId).step (initially commands) past = some config) (targetName : String)
    (settings : ProbeSessionConfig) :
    (runVerificationFrom config.shared.trace targetName settings).verdict.isBug = false ∧
    ∃ rest last, run? (lockPrograms threadId).step (initially commands) (past ++ rest) = some last ∧ last.Finished := by
  refine ⟨?_, finishes_of_ordered injective ordered reached⟩
  have once := once_of_ordered ordered
  rw [Bool.eq_false_iff]
  intro bug
  obtain ⟨first, second, left, right, reverses⟩ := (isBug_iff_reversedPair ..).mp bug
  obtain ⟨one, left⟩ := nests_of_nestedAcquire injective once reached left
  obtain ⟨other, right⟩ := nests_of_nestedAcquire injective once reached right
  exact not_reversedNesting_of_ordered ordered ⟨one, other, first, second, left, right, reverses⟩

/-- The two threads take their second lock inside the first one. -/
theorem nested_ordered (resource : String) : ¬ Relation.TransGen (Precedes nested) resource resource := by
  refine acyclic_of_rank (fun resource => if resource = "a" then 0 else 1) ?_ resource
  rintro first second ⟨thread, edge, nests, rfl, rfl⟩
  simp only [nested, nests_cons, nests_nil, after, List.mem_cons, List.not_mem_nil, or_false, Command.acquire.injEq,
    false_and, exists_false, and_false, exists_eq_left, false_or] at nests
  obtain ⟨access, resource, ⟨rfl, rfl⟩, rfl⟩ := nests
  decide

theorem ordered_locks_finish_nested :
    ∃ rest last, run? (lockPrograms pairId).step (initially nested) (turns [false, false, true] ++ rest) = some last ∧
      last.Finished := by
  have reached : run? (lockPrograms pairId).step (initially nested) (turns [false, false, true]) =
    some (endOf nested (turns [false, false, true])) := rfl
  exact (ordered_locks_finish pairId_injective nested_ordered reached "nested" ⟨500, true, "."⟩).2

end Laplace.Soundness.LockPrograms

namespace Laplace.Soundness.ReaderCycles

open Laplace.Machine Laplace.Model.StdLocks

variable {Thread : Type} {state next : Thread → ThreadState} {hooked : Bool}

/-- The locks that are held after a command. -/
def heldAfter (held : List UInt64) : Command → List UInt64
  | .read resource | .write resource => resource :: held
  | .drop resource => held.erase resource

/-- Some thread asks for the second lock where it holds the first one. -/
def Precedes (commands : Thread → List Command) (first second : UInt64) : Prop :=
  ∃ thread before command later mode, commands thread = before ++ command :: later ∧
    asks command = some (second, mode) ∧ first ∈ before.foldl heldAfter []

/-- The guards of each thread are those of the commands that it has done. -/
def Follows (commands : Thread → List Command) (state : Thread → ThreadState) : Prop :=
  ∀ thread, ∃ done, commands thread = done ++ (state thread).commands ∧
    (state thread).guards.map Guard.resource = done.foldl heldAfter []

theorem result_resources {guards later : List Guard} {command : Command}
    (ran : ((command.program guards).run (observe hooked) []).1 = some later) :
    later.map Guard.resource = heldAfter (guards.map Guard.resource) command := by
  rw [program_result] at ran
  cases command with
  | read resource | write resource =>
    cases ran
    rfl
  | drop resource =>
    simp only [Command.program] at ran
    rw [heldAfter, List.erase_eq_eraseP', List.eraseP_map]
    cases found : guards.find? (·.resource == resource) with
    | none =>
      rw [found] at ran
      cases ran
      exact congrArg _ (List.eraseP_of_forall_not (List.find?_eq_none.mp found)).symm
    | some guard =>
      rw [found] at ran
      cases ran
      exact congrArg _ (LockPrograms.erase_of_find found)

variable [Fintype Thread] [DecidableEq Thread]

/-- A step is one command of a thread that waits for nobody. -/
theorem threadStep_cases {thread : Thread} (stepped : threadStep hooked state thread = some next) :
    ∃ command rest guards, (state thread).commands = command :: rest ∧
      (∀ other, waits hooked state thread other = false) ∧
      guards.map Guard.resource = heldAfter ((state thread).guards.map Guard.resource) command ∧
      next = Function.update state thread { commands := rest, guards } := by
  simp only [threadStep] at stepped
  cases isNext : (state thread).commands with
  | nil =>
    rw [isNext] at stepped
    cases stepped
  | cons command rest =>
    simp only [isNext] at stepped
    obtain ⟨free, continued⟩ := Option.ite_none_right_eq_some.mp stepped
    obtain ⟨guards, ran, rfl⟩ := Option.map_eq_some_iff.mp continued
    exact ⟨command, rest, guards, rfl, free, result_resources ran, rfl⟩

theorem Follows.step {commands : Thread → List Command} {thread : Thread} (follows : Follows commands state)
    (stepped : threadStep hooked state thread = some next) : Follows commands next := by
  obtain ⟨command, rest, guards, isNext, -, resources, rfl⟩ := threadStep_cases stepped
  intro other
  rcases eq_or_ne other thread with rfl | different
  · obtain ⟨done, split, held⟩ := follows other
    refine ⟨done ++ [command], ?_, ?_⟩
    · rw [Function.update_self, split, isNext, List.append_assoc, List.singleton_append]
    · rw [Function.update_self, resources, held, List.foldl_append]
      rfl
  · rw [Function.update_of_ne different]
    exact follows other

theorem follows_of_run {commands : Thread → List Command} {schedule : List Thread}
    (reached : run? (threadStep hooked) (initially commands) schedule = some state) : Follows commands state :=
  run?_invariant (Follows commands) (fun _ => ⟨[], rfl, rfl⟩) (fun _ _ _ _ follows stepped => follows.step stepped)
    reached (fun _ _ => trivial)

omit [Fintype Thread] [DecidableEq Thread] in
theorem asks_of_obstructs {command : Command} {guard : Guard} (obstructed : obstructs hooked command guard = true) :
    ∃ mode, asks command = some (guard.resource, mode) := by
  simp only [obstructs] at obstructed
  cases asked : asks command with
  | none =>
    rw [asked] at obstructed
    cases obstructed
  | some ask =>
    rw [asked] at obstructed
    obtain ⟨resource, mode⟩ := ask
    simp only [Bool.and_eq_true, beq_iff_eq] at obstructed
    exact ⟨mode, by rw [obstructed.1]⟩

/-- The lock that the next command of a thread asks for, if it asks for one. -/
def wanted (state : Thread → ThreadState) (thread : Thread) : UInt64 :=
  match (state thread).commands with
  | [] => 0
  | command :: _ => ((asks command).map Prod.fst).getD 0

omit [Fintype Thread] [DecidableEq Thread] in
/-- Who is waited for holds the lock, and asks for another one if it waits itself. -/
theorem Follows.precedes {commands : Thread → List Command} {one other third : Thread}
    (follows : Follows commands state) (waiting : waits hooked state one other = true)
    (waiting' : waits hooked state other third = true) :
    Precedes commands (wanted state one) (wanted state other) := by
  obtain ⟨command, rest, isNext, guard, isHeld, obstructed⟩ := waits_iff.mp waiting
  obtain ⟨command', rest', isNext', guard', -, obstructed'⟩ := waits_iff.mp waiting'
  obtain ⟨mode, asked⟩ := asks_of_obstructs obstructed
  obtain ⟨mode', asked'⟩ := asks_of_obstructs obstructed'
  obtain ⟨done, split, held⟩ := follows other
  have wants : wanted state one = guard.resource := by simp [wanted, isNext, asked]
  have wants' : wanted state other = guard'.resource := by simp [wanted, isNext', asked']
  rw [wants, wants']
  refine ⟨other, done, command', rest', mode', by rw [split, isNext'], asked', ?_⟩
  rw [← held]
  exact List.mem_map_of_mem isHeld

omit [Fintype Thread] [DecidableEq Thread] in
/-- A command that may be done is done. -/
theorem program_runs (hooked : Bool) (guards : List Guard) (command : Command) :
    ∃ later, ((command.program guards).run (observe hooked) []).1 = some later := by
  rw [program_result]
  cases command with
  | read resource | write resource => exact ⟨_, rfl⟩
  | drop resource =>
    simp only [Command.program]
    cases guards.find? (·.resource == resource) with
    | none => exact ⟨_, rfl⟩
    | some guard => exact ⟨_, rfl⟩

/-- A thread without a step is done or waits. -/
theorem waits_of_stuck {thread : Thread} (stuck : threadStep hooked state thread = none)
    (unfinished : (state thread).commands ≠ []) : ∃ other, waits hooked state thread other = true := by
  by_contra free
  simp only [not_exists, Bool.not_eq_true] at free
  cases isNext : (state thread).commands with
  | nil => exact unfinished isNext
  | cons command rest =>
    obtain ⟨later, ran⟩ := program_runs hooked (state thread).guards command
    simp [threadStep, isNext, free, ran] at stuck

/-- What the threads have left to do. -/
def remaining (state : Thread → ThreadState) : ℕ := ∑ thread, (state thread).commands.length

theorem remaining_step {thread : Thread} (stepped : threadStep hooked state thread = some next) :
    remaining next < remaining state := by
  obtain ⟨command, rest, guards, isNext, -, -, rfl⟩ := threadStep_cases stepped
  refine Finset.sum_lt_sum (fun other _ => ?_) ⟨thread, Finset.mem_univ thread, ?_⟩
  · rcases eq_or_ne other thread with rfl | different
    · rw [Function.update_self, isNext]
      exact Nat.le_succ _
    · rw [Function.update_of_ne different]
  · rw [Function.update_self, isNext]
    exact Nat.lt_succ_self _

/-- **Ordered locks under the exclusive boundary.** Where no lock precedes itself, threads cannot deadlock under a hook
that makes an exclusive acquisition of every read, nor without one, and if they drop their guards, every run can be
continued to where all of them are done. -/
theorem ordered_rwlocks_finish (hooked : Bool) (commands : Thread → List Command)
    (ordered : ∀ resource, ¬ Relation.TransGen (Precedes commands) resource resource) :
    ¬ CanDeadlock hooked commands ∧
    ((∀ thread, (commands thread).foldl heldAfter [] = []) →
      ∀ schedule state, run? (threadStep hooked) (initially commands) schedule = some state →
        ∃ rest final, run? (threadStep hooked) (initially commands) (schedule ++ rest) = some final ∧
          ∀ thread, (final thread).commands = []) := by
  constructor
  · rintro ⟨schedule, state, reached, thread, around⟩
    exact ordered _ (wanted_cycle (wanted state)
      (fun _ _ _ waiting waiting' => (follows_of_run reached).precedes waiting waiting') around)
  · intro dropped schedule state reached
    obtain ⟨rest, final, onward, stuck⟩ := run?_terminal remaining (fun _ _ _ => remaining_step) state
    have whole : run? (threadStep hooked) (initially commands) (schedule ++ rest) = some final := by
      rw [run?_append, reached]
      exact onward
    have follows := follows_of_run whole
    have behind : ∀ thread, (final thread).commands ≠ [] → ∃ other, (final other).commands ≠ [] ∧
        Precedes commands (wanted final thread) (wanted final other) := by
      intro thread unfinished
      obtain ⟨other, waiting⟩ := waits_of_stuck (stuck thread) unfinished
      have busy : (final other).commands ≠ [] := by
        -- who is done holds nothing
        intro idle
        obtain ⟨-, -, -, guard, isHeld, -⟩ := waits_iff.mp waiting
        obtain ⟨done, split, held⟩ := follows other
        rw [idle, List.append_nil] at split
        rw [← split, dropped, List.map_eq_nil_iff] at held
        rw [held] at isHeld
        exact List.not_mem_nil isHeld
      obtain ⟨third, waiting'⟩ := waits_of_stuck (stuck other) busy
      exact ⟨other, busy, follows.precedes waiting waiting'⟩
    refine ⟨rest, final, whole, fun thread => ?_⟩
    by_contra unfinished
    exact none_waits (wanted final) ordered behind thread unfinished

/-- Two threads that write the second lock inside a read of the first one. -/
def inOrder (_ : Bool) : List Command := [.read 0, .write 1, .drop 1, .drop 0]

theorem inOrder_ordered (resource : UInt64) : ¬ Relation.TransGen (Precedes inOrder) resource resource := by
  refine acyclic_of_rank UInt64.toNat ?_ resource
  rintro first second ⟨thread, before, command, later, mode, split, asked, isHeld⟩
  rcases before with - | ⟨one, - | ⟨two, - | ⟨three, - | ⟨four, before⟩⟩⟩⟩
  · cases isHeld
  · simp only [inOrder, List.cons_append, List.nil_append, List.cons.injEq] at split
    obtain ⟨rfl, rfl, -⟩ := split
    obtain ⟨rfl, -⟩ := Prod.mk.inj (Option.some.inj asked)
    obtain rfl := List.mem_singleton.mp isHeld
    decide
  · simp only [inOrder, List.cons_append, List.nil_append, List.cons.injEq] at split
    obtain ⟨-, -, rfl, -⟩ := split
    cases asked
  · simp only [inOrder, List.cons_append, List.nil_append, List.cons.injEq] at split
    obtain ⟨-, -, -, rfl, -⟩ := split
    cases asked
  · simp [inOrder] at split

theorem ordered_rwlocks_finish_inOrder : ¬ CanDeadlock true inOrder ∧
    ∃ rest final, run? (threadStep true) (initially inOrder) ([false] ++ rest) = some final ∧
      ∀ thread, (final thread).commands = [] := by
  have result := ordered_rwlocks_finish true inOrder inOrder_ordered
  exact ⟨result.1, result.2 (by decide) [false] _ rfl⟩

end Laplace.Soundness.ReaderCycles
