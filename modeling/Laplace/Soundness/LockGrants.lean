import Mathlib.Algebra.Order.BigOperators.Group.Finset
import Laplace.Soundness.LockBalance

/-! # Granted locks that are still taken

An engine that grants every lock to one use at a time may still see a granted call find its lock taken: a guard
reports its release before it drops the real guard, and a try-operation takes the real lock before it asks for the
grant. A granted call panics exactly where it meets such a use.
-/

namespace Laplace.Soundness.LockBalance

open Laplace.Machine Laplace.Model.StdLocks

variable {Process : Type} [DecidableEq Process]

/-- An acquisition returns only when every earlier one of the resource was matched by a release. -/
def exclusive (trace : List LockEvent) (resource : UInt64) : Bool :=
  trace.count (.acquire resource) == trace.count (.release resource)

/-- The resource that was granted and not returned. -/
def Phase.outstanding : Phase → Option UInt64
  | .granted resource | .holding resource _ | .abandoned resource | .contended resource => some resource
  | _ => none

/-- No resource is granted twice at a time. -/
def Exclusive (phases : Process → Phase) : Prop :=
  ∀ process other resource, (phases process).outstanding = some resource →
    (phases other).outstanding = some resource → process = other

section Exclusion

variable {world : World Process} {phases : Process → Phase} {process : Process} {phase later : Phase}
  {resource resource' : UInt64} {mode : Mode}

/-- A process whose share does not grow leaves the grants exclusive. -/
theorem Exclusive.moves (exclusive : Exclusive phases)
    (shrinks : ∀ resource, later.outstanding = some resource → (phases process).outstanding = some resource) :
    Exclusive (Function.update phases process later) := by
  have earlier : ∀ other resource, (Function.update phases process later other).outstanding = some resource →
      (phases other).outstanding = some resource := by
    intro other resource
    rcases eq_or_ne other process with rfl | different
    · rw [Function.update_self]
      exact shrinks resource
    · rw [Function.update_of_ne different]
      exact id
  exact fun one other resource isOne isOther => exclusive one other resource (earlier _ _ isOne) (earlier _ _ isOther)

/-- A grant that is outstanding makes the acquisitions exceed the releases. -/
theorem Invariant.unmatched [Fintype Process] (holds : Invariant world phases)
    (isOutstanding : (phases process).outstanding = some resource) :
    total world (.release resource) < total world (.acquire resource) := by
  rw [total_eq_sum, total_eq_sum]
  apply Finset.sum_lt_sum
  · intro other _
    rw [(holds other).released, (holds other).acquired]
    cases phases other <;> simp [Phase.released, Phase.acquired]
  · refine ⟨process, Finset.mem_univ _, ?_⟩
    rw [(holds process).released, (holds process).acquired]
    cases stands : phases process <;> rw [stands] at isOutstanding <;> cases isOutstanding <;>
      simp [Phase.released, Phase.acquired]

/-- After a report, the resource is outstanding that was acquired. -/
theorem report_outstanding {event : LockEvent} (moved : phase.report event = some later)
    (isOutstanding : later.outstanding = some resource) : event = .acquire resource := by
  rcases report_cases moved with ⟨resource', -, rfl, rfl⟩ | ⟨resource', mode, -, rfl, rfl⟩ |
    ⟨resource', mode, -, rfl, rfl⟩
  · exact congrArg _ (Option.some.inj isOutstanding)
  · exact congrArg _ (Option.some.inj isOutstanding)
  · cases isOutstanding

/-- A resource that is granted was granted to nobody. -/
theorem Exclusive.granted [Fintype Process] (exclusives : Exclusive phases) (holds : Invariant world phases)
    (free : exclusive (world.trace.map Prod.snd) resource = true)
    (moved : (phases process).report (.acquire resource) = some later) :
    Exclusive (Function.update phases process later) := by
  have nobody : ∀ other, (phases other).outstanding ≠ some resource := by
    intro other isOutstanding
    have exceeds := holds.unmatched isOutstanding
    rw [total, total, ← beq_iff_eq.mp free] at exceeds
    exact Nat.lt_irrefl _ exceeds
  have onlyThis : ∀ resource', later.outstanding = some resource' → resource' = resource := by
    intro resource' isOutstanding
    have same := report_outstanding moved isOutstanding
    exact (LockEvent.acquire.inj same).symm
  intro one other resource' isOne isOther
  rcases eq_or_ne process one with rfl | different <;> rcases eq_or_ne process other with rfl | apart
  · rfl
  · rw [Function.update_self] at isOne
    rw [Function.update_of_ne apart.symm, onlyThis _ isOne] at isOther
    exact absurd isOther (nobody other)
  · rw [Function.update_self] at isOther
    rw [Function.update_of_ne different.symm, onlyThis _ isOther] at isOne
    exact absurd isOne (nobody one)
  · rw [Function.update_of_ne different.symm] at isOne
    rw [Function.update_of_ne apart.symm] at isOther
    exact exclusives one other resource' isOne isOther

theorem Exclusive.released (exclusives : Exclusive phases)
    (moved : (phases process).report (.release resource) = some later) :
    Exclusive (Function.update phases process later) := by
  apply exclusives.moves
  intro resource' isOutstanding
  cases report_outstanding moved isOutstanding

/-- A grant, a refusal or the end of a real lock leaves what is outstanding as it is. -/
theorem grant_outstanding (moved : phase.grant resource mode = some later) :
    later.outstanding = phase.outstanding := by
  rcases grant_cases moved with ⟨rfl, rfl⟩ | ⟨rfl, rfl⟩ <;> rfl

theorem refuse_outstanding (moved : phase.refuse resource = some later) : later.outstanding = phase.outstanding := by
  rcases refuse_cases moved with ⟨rfl, rfl⟩ | ⟨rfl, rfl⟩ <;> rfl

theorem give_outstanding {panicking : Bool} (moved : phase.give resource mode panicking = some later)
    (isOutstanding : later.outstanding = some resource') : phase.outstanding = some resource' := by
  rcases give_cases moved with ⟨rfl, rfl⟩ | ⟨rfl, rfl⟩
  · cases isOutstanding
  · exact isOutstanding

theorem Exclusive.same (exclusives : Exclusive phases) (same : later.outstanding = (phases process).outstanding) :
    Exclusive (Function.update phases process later) :=
  exclusives.moves fun _ isOutstanding => same ▸ isOutstanding

/-- The engine's grants stay exclusive. -/
theorem stdLocks_keeps_exclusive [Fintype Process] (engine : Bool) :
    (stdLocks exclusive engine : System _ _ Process _ _ _ _).Keeps protocol fun world phases =>
      Invariant world phases ∧ Exclusive phases := by
  intro world phases process effect choice reply next holds answered
  obtain ⟨isPossible, kept⟩ := stdLocks_keeps exclusive engine world phases process effect choice reply next holds.1 answered
  refine ⟨isPossible, fun later permitted moved => ⟨kept later permitted moved, ?_⟩⟩
  obtain ⟨holds, exclusives⟩ := holds
  cases effect with
  | lockHook | spawnHook =>
    cases moved
    exact exclusives.same rfl
  | report event =>
    cases event with
    | acquire resource =>
      simp only [stdLocks, World.answer] at answered
      split at answered
      · next free => exact exclusives.granted holds free moved
      · cases answered
    | release resource => exact exclusives.released moved
  | take resource mode => exact exclusives.same (grant_outstanding moved)
  | tryTake resource mode =>
    cases reply with
    | acquired poisoned => exact exclusives.same (grant_outstanding moved)
    | wouldBlock => exact exclusives.same (refuse_outstanding moved)
  | give resource mode panicking => exact exclusives.moves fun _ => give_outstanding moved

end Exclusion

section Runs

/-- The use holds the real lock outside its grant: the hook was not told of its acquisition yet, or of its release
already. -/
def inWindow (world : World Process) (process : Process) (resource : UInt64) : Bool :=
  (process, .acquire resource) ∉ world.trace || (process, .release resource) ∈ world.trace

/-- No use stands in the way of a granted attempt while it holds the real lock outside its own grant. -/
def isClear (config : Config Process) : System.Action Process Operation Bool → Bool
  | .advance process _ =>
      match config.program process with
      | .call (.tryTake resource mode) _ =>
          -- a try-operation was not granted before its attempt, and may fail
          (process, .acquire resource) ∉ config.shared.trace ||
            config.shared.holders.all fun (other, held, otherMode) =>
              held != resource || !mode.conflicts otherMode || !inWindow config.shared other resource
      | _ => true
  | .start .. => true

/-- No call has panicked. -/
def Unpanicked (config : Config Process) : Prop :=
  ∀ process resource message, config.program process ≠ .done (.panicked resource message)

variable {world : World Process} {phases : Process → Phase} {process other : Process} {resource : UInt64}
  {mode : Mode} {config final : Config Process} {actions : List (System.Action Process Operation Bool)}

/-- A process has reported what its phase says. -/
theorem Stands.mem_acquire {phase : Phase} (stands : Stands world process phase) :
    (process, .acquire resource) ∈ world.trace ↔ phase.acquired = some resource := by
  rw [← List.count_pos_iff]
  change 0 < count world process (.acquire resource) ↔ _
  rw [stands.acquired]
  split <;> simp [*]

theorem Stands.mem_release {phase : Phase} (stands : Stands world process phase) :
    (process, .release resource) ∈ world.trace ↔ phase.released = some resource := by
  rw [← List.count_pos_iff]
  change 0 < count world process (.release resource) ↔ _
  rw [stands.released]
  split <;> simp [*]

/-- Whoever holds the real lock of a resource that is granted to somebody else holds it outside its own grant. -/
theorem holder_inWindow (holds : Invariant world phases) (exclusives : Exclusive phases)
    (isGranted : phases process = .granted resource) (isHolder : (other, resource, mode) ∈ world.holders) :
    inWindow world other resource = true := by
  have held := ((holds other).held resource mode).mp isHolder
  simp only [inWindow, Bool.or_eq_true, decide_eq_true_eq, (holds other).mem_acquire, (holds other).mem_release]
  cases stands : phases other with
  | got resource' mode' => exact .inl nofun
  | returned resource' mode' =>
    rw [stands] at held
    cases held
    exact .inr rfl
  | holding resource' mode' =>
    rw [stands] at held
    cases held
    have same := exclusives process other resource (by rw [isGranted]; rfl) (by rw [stands]; rfl)
    rw [← same, isGranted] at stands
    cases stands
  | quiet | granted | matched | abandoned | contended =>
    rw [stands] at held
    cases held

abbrev Held (config : Config Process) (phases : Process → Phase) : Prop :=
  System.Phased protocol (fun later use => later.Rest use) (fun world phases => Invariant world phases ∧
      Exclusive phases)
    config phases

/-- A granted attempt that is refused met a use in its window. -/
theorem refused_not_clear (held : Held config phases) {next : TryLock → StdLockM Use}
    (running : config.program process = .call (.tryTake resource mode) next)
        (isGranted : phases process = .granted resource)
    (taken : config.shared.isFree resource mode = false) (choice : Bool) :
    isClear config (.advance process choice) = false := by
  obtain ⟨⟨holds, exclusives⟩, -⟩ := held
  have isAcquired : (process, .acquire resource) ∈ config.shared.trace := by
    rw [(holds process).mem_acquire, isGranted]
    rfl
  simp only [isClear, running, isAcquired, not_true_eq_false, decide_false, Bool.false_or]
  rw [World.isFree, List.all_eq_false] at taken
  obtain ⟨⟨other, resource', mode'⟩, isHolder, conflicts⟩ := taken
  rw [List.all_eq_false]
  refine ⟨_, isHolder, ?_⟩
  simp only [bne_iff_ne, ne_eq, Bool.or_eq_true, Bool.not_eq_true', not_or, not_not] at conflicts
  obtain ⟨rfl, conflicts⟩ := conflicts
  simp only [bne_self_eq_false, conflicts, Bool.false_or, holder_inWindow holds exclusives isGranted isHolder,
    Bool.not_true, Bool.false_eq_true, not_false_eq_true]

/-- No phase says that a call has panicked. -/
def NoneContended (phases : Process → Phase) : Prop := ∀ process resource, phases process ≠ .contended resource

theorem NoneContended.moves {later : Phase} (none : NoneContended phases)
    (other : ∀ resource, later ≠ .contended resource) : NoneContended (Function.update phases process later) :=
  (Function.forall_update_iff phases fun _ phase => ∀ resource, phase ≠ .contended resource).mpr
    ⟨other, fun process _ => none process⟩

/-- Only a refusal makes a call panic. -/
theorem report_uncontended {phase later : Phase} {event : LockEvent} (moved : phase.report event = some later) :
    later ≠ .contended resource := by
  rcases report_cases moved with ⟨_, _, _, rfl⟩ | ⟨_, _, _, _, rfl⟩ | ⟨_, _, _, _, rfl⟩ <;> exact nofun

theorem grant_uncontended {phase later : Phase} {resource' : UInt64}
    (moved : phase.grant resource mode = some later) :
    later ≠ .contended resource' := by
  rcases grant_cases moved with ⟨-, rfl⟩ | ⟨-, rfl⟩ <;> exact nofun

theorem give_uncontended {phase later : Phase} {resource' : UInt64} {panicking : Bool}
    (moved : phase.give resource mode panicking = some later) : later ≠ .contended resource' := by
  rcases give_cases moved with ⟨-, rfl⟩ | ⟨-, rfl⟩ <;> exact nofun

/-- Clear steps make no call panic. -/
theorem stdLocks_keeps_clear [Fintype Process] (engine : Bool) :
    (stdLocks exclusive engine : System _ _ Process _ _ _ _).KeepsWhen (isClear · ·) protocol
      (fun later use => later.Rest use) fun world phases =>
        (Invariant world phases ∧ Exclusive phases) ∧ NoneContended phases := by
  intro config phases process effect next choice reply shared phased clear running answered
  obtain ⟨⟨held, none⟩, conform⟩ := phased
  obtain ⟨isPossible, kept⟩ := stdLocks_keeps_exclusive engine config.shared phases process effect choice reply shared
    held answered
  refine ⟨isPossible, fun later permitted moved => ⟨kept later permitted moved, ?_⟩⟩
  apply none.moves
  cases effect with
  | lockHook | spawnHook =>
    cases moved
    exact none process
  | report event => exact fun _ => report_uncontended moved
  | take resource mode => exact fun _ => grant_uncontended moved
  | give resource mode panicking => exact fun _ => give_uncontended moved
  | tryTake resource mode =>
    cases reply with
    | acquired poisoned => exact fun _ => grant_uncontended moved
    | wouldBlock =>
      have taken : config.shared.isFree resource mode = false := by
        simp only [stdLocks, World.answer] at answered
        split at answered
        · cases answered
        · next taken => exact Bool.eq_false_iff.mpr taken
      rintro resource' rfl
      have isGranted : phases process = .granted resource := by
        rcases refuse_cases moved with ⟨-, never⟩ | ⟨isGranted, -⟩
        · cases never
        · exact isGranted
      rw [refused_not_clear ⟨held, conform⟩ running isGranted taken choice] at clear
      cases clear

/-- A granted attempt that is not clear panics. -/
theorem panics_of_not_clear [Fintype Process] (held : Held config phases)
    {action : System.Action Process Operation Bool}
    {engine : Bool} (unclear : isClear config action = false)
    (stepped : (stdLocks exclusive engine).step config action = some final) : ¬ Unpanicked final := by
  obtain ⟨⟨holds, -⟩, conform⟩ := held
  obtain ⟨process, operation, use, program, rfl, idle, started, rfl⟩ |
    ⟨process, choice, effect, next, reply, shared, rfl, running, answered, rfl⟩ := System.step_cases stepped
  · cases unclear
  · simp only [isClear, running] at unclear
    split at unclear
    · next resource mode next' same =>
      cases same
      rw [Bool.or_eq_false_iff, decide_eq_false_iff_not, not_not, (holds process).mem_acquire,
        List.all_eq_false] at unclear
      obtain ⟨isAcquired, ⟨other, resource', mode'⟩, isHolder, conflicts⟩ := unclear
      have taken : config.shared.isFree resource mode = false := by
        rw [World.isFree, List.all_eq_false]
        refine ⟨_, isHolder, fun passes => conflicts ?_⟩
        rw [Bool.or_eq_true]
        exact .inl passes
      simp only [stdLocks, World.answer, taken, Bool.false_eq_true, if_false, Option.some.injEq,
          Prod.mk.injEq] at answered
      obtain ⟨rfl, rfl⟩ := answered
      have conforms := conform process
      rw [running] at conforms
      obtain ⟨later, moved, onward⟩ := conforms.2 .wouldBlock trivial
      have isContended : later = .contended resource := by
        rcases refuse_cases moved with ⟨isQuiet, -⟩ | ⟨-, isContended⟩
        · rw [isQuiet] at isAcquired
          cases isAcquired
        · exact isContended
      obtain rfl := isContended
      intro unpanicked
      cases ended : next' .wouldBlock with
      | done use =>
        rw [ended] at onward
        cases use with
        | panicked resource' message =>
          apply unpanicked process resource' message
          simp only [Function.update_self, ended]
        | idle | failed | held => cases onward
        | dropped guard panicking => cases panicking <;> cases onward
      | call effect rest =>
        rw [ended] at onward
        exact onward.1 resource rfl
    · cases unclear

/-- A call that has panicked stays so. -/
theorem unpanicked_of_step {engine : Bool} {action : System.Action Process Operation Bool}
    (stepped : (stdLocks exclusive engine).step config action = some final) (unpanicked : Unpanicked final) :
    Unpanicked config := by
  intro process resource message isPanicked
  obtain ⟨process', operation, use, program, rfl, idle, started, rfl⟩ |
    ⟨process', choice, effect, next, reply, shared, rfl, running, answered, rfl⟩ := System.step_cases stepped
  · apply unpanicked process resource message
    rcases eq_or_ne process process' with rfl | different
    · rw [isPanicked] at idle
      cases idle
      cases operation <;> cases started
    · simpa only [Function.update_of_ne different] using isPanicked
  · apply unpanicked process resource message
    rcases eq_or_ne process process' with rfl | different
    · rw [isPanicked] at running
      cases running
    · simpa only [Function.update_of_ne different] using isPanicked

theorem unpanicked_of_run {engine : Bool} (reached : run? (stdLocks exclusive engine).step config actions = some final)
    (unpanicked : Unpanicked final) : Unpanicked config := by
  induction actions generalizing config with
  | nil =>
    obtain rfl := Option.some.inj reached
    exact unpanicked
  | cons action rest ih =>
    obtain ⟨next, stepped, onward⟩ := Option.bind_eq_some_iff.mp reached
    exact unpanicked_of_step stepped (ih onward)

/-- A run in which no call panicked was clear all along. -/
theorem clear_of_unpanicked [Fintype Process] {engine : Bool} (held : ∃ phases, Held config phases)
    (reached : run? (stdLocks exclusive engine).step config actions = some final) (unpanicked : Unpanicked final) :
    Along (stdLocks exclusive engine).step (isClear · ·) config actions := by
  induction actions generalizing config with
  | nil => trivial
  | cons action rest ih =>
    obtain ⟨next, stepped, onward⟩ := Option.bind_eq_some_iff.mp reached
    obtain ⟨phases, held⟩ := held
    constructor
    · by_contra unclear
      rw [Bool.not_eq_true] at unclear
      exact panics_of_not_clear held unclear stepped (unpanicked_of_run onward unpanicked)
    · rw [stepped]
      have once : run? (stdLocks exclusive engine).step config [action] = some next := by
        rw [run?, stepped]
        rfl
      have heldNext := System.phases_of_run (fun _ _ _ _ _ started rest => start_conforms started rest)
        (stdLocks_keeps_exclusive engine) held once
      exact ih heldNext onward

/-- **Granted locks.** With an engine that grants every resource to one use at a time, no call panics in a run if and
only if every granted attempt of the run was made while no use that conflicts with it held the real lock outside
its own grant: after a try-operation took it and before the grant, or after the release was reported and before the
real guard is dropped. -/
theorem unpanicked_iff_clear [Fintype Process]
    (reached : run? (stdLocks exclusive true).step (unused : Config Process) actions = some final) :
    Unpanicked final ↔ Along (stdLocks exclusive true).step (isClear · ·) unused actions := by
  have begins : Invariant (unused : Config Process).shared (fun _ => .quiet) ∧
      Exclusive fun _ : Process => .quiet := by
    refine ⟨fun process => ?_, nofun⟩
    constructor
    · exact fun _ => rfl
    · exact fun _ => rfl
    · exact fun _ _ => ⟨nofun, nofun⟩
  constructor
  · exact clear_of_unpanicked ⟨fun _ => .quiet, begins, fun _ => rfl⟩ reached
  · intro clear process resource message isPanicked
    obtain ⟨phases, ⟨-, none⟩, conform⟩ := System.phases_of_admitted_run
      (System.Starts.always fun _ _ _ _ _ started rest => start_conforms started rest)
      (stdLocks_keeps_clear true) ⟨⟨begins, nofun⟩, fun _ => rfl⟩ reached clear
    have rest := conform process
    rw [isPanicked] at rest
    exact none process resource rest

/-- The second thread asks for the mutex while the first one holds it, and gets it after the guard is gone. -/
def waitsForUnlock : List (System.Action Bool Operation Bool) :=
  List.flatten [[.start false (.lock 7)], List.replicate 4 (.advance false true),
    [.start true (.lock 7), .advance true true], [.start false (.drop false)], List.replicate 3 (.advance false true),
    List.replicate 3 (.advance true true)]

theorem unpanicked_iff_clear_waits :
    ∃ config : Config Bool, run? (stdLocks exclusive true).step unused waitsForUnlock = some config ∧
      config.shared.trace = [(false, .acquire 7), (false, .release 7), (true, .acquire 7)] ∧ Unpanicked config := by
  have shown : (run? (stdLocks exclusive true).step (unused : Config Bool) waitsForUnlock).map
      (fun config => config.shared.trace) = some [(false, .acquire 7), (false, .release 7), (true, .acquire 7)] :=
          by decide
  obtain ⟨config, reached, trace⟩ := Option.map_eq_some_iff.mp shown
  exact ⟨config, reached, trace, (unpanicked_iff_clear reached).mpr (by decide)⟩

/-- The second thread gets the mutex between the report of its release and its unlocking. -/
def grantedTooEarly : List (System.Action Bool Operation Bool) :=
  List.flatten [[.start false (.lock 7)], List.replicate 4 (.advance false true), [.start false (.drop false)],
    List.replicate 2 (.advance false true), [.start true (.lock 7)], List.replicate 4 (.advance true true)]

/-- A granted call finds its mutex taken, though the engine granted it to one thread at a time. -/
theorem granted_mutex_contended :
    ¬ ∀ config : Config Bool, run? (stdLocks exclusive true).step unused grantedTooEarly = some config →
      Unpanicked config := by
  intro never
  obtain ⟨config, reached, isPanicked⟩ : ∃ config : Config Bool,
      run? (stdLocks exclusive true).step unused grantedTooEarly = some config ∧ config.program true =
        .done (.panicked 7 "laplace-model-rt lock hook granted a contended mutex") := ⟨_, rfl, rfl⟩
  exact never config reached true _ _ isPanicked

end Runs

end Laplace.Soundness.LockBalance
