import Mathlib.Logic.Relation
import Laplace.Model.StdLocks

/-! # Wait cycles of readers

A hook is told of a read as of an exclusive acquisition. Every run under such a hook is a run of the real locks, and
a thread that waits there waits for the real lock too, unless it waits to read a lock that is held for reading. A
cycle of waiting threads that contains such a wait is an invention of the boundary.
-/

namespace Laplace.Soundness.ReaderCycles

open Laplace.Machine Laplace.Model.StdLocks

variable {Thread : Type} {state next : Thread → ThreadState} {hooked : Bool} {one other : Thread}

/-- The lock that a command asks for. -/
def asks : Command → Option (UInt64 × Mode)
  | .read resource => some (resource, .shared)
  | .write resource => some (resource, .exclusive)
  | .drop _ => none

/-- A guard is in the way of a command that asks for its lock: of every one under a hook, else of one that
conflicts. -/
def obstructs (hooked : Bool) (command : Command) (guard : Guard) : Bool :=
  match asks command with
  | some (resource, mode) => guard.resource == resource && (hooked || mode.conflicts guard.mode)
  | none => false

/-- What a command that asks for a lock performs: its report under a hook, and the real lock. -/
def asking (hooked : Bool) (resource : UInt64) (mode : Mode) : List Effect :=
  if hooked then [.report (.acquire resource), .take resource mode] else [.take resource mode]

theorem asking_blocks (resource : UInt64) (mode : Mode) (guard : Guard) :
    (asking hooked resource mode).any guard.blocks =
      (guard.resource == resource && (hooked || mode.conflicts guard.mode)) := by
  cases hooked with
  | false => simp [asking, Guard.blocks]
  | true =>
    cases same : guard.resource == resource <;> simp [asking, Guard.blocks, same]

/-- The drop of a guard asks for nothing. -/
theorem drop_blocks (dropped guard : Guard) :
    (performs hooked (dropped.drop false)).any guard.blocks = false := by
  cases hooked <;> rfl

theorem program_blocks (guards : List Guard) (command : Command) (guard : Guard) :
    (performs hooked (command.program guards)).any guard.blocks = obstructs hooked command guard := by
  cases command with
  | read resource =>
    have performed : performs hooked ((Command.read resource).program guards) = asking hooked resource .shared := by
      cases hooked <;> rfl
    rw [performed, asking_blocks]
    rfl
  | write resource =>
    have performed : performs hooked ((Command.write resource).program guards) = asking hooked resource .exclusive := by
      cases hooked <;> rfl
    rw [performed, asking_blocks]
    rfl
  | drop resource =>
    simp only [Command.program]
    split
    · next dropped _ =>
      have performed : performs hooked (do
          dropped.drop false
          return guards.erase dropped) = performs hooked (dropped.drop false) := by
        cases hooked <;> rfl
      rw [performed, drop_blocks]
      rfl
    · rfl

/-- What a command leaves of the guards, which does not depend on the hook. -/
theorem program_result (guards : List Guard) (command : Command) :
    ((command.program guards).run (observe hooked) []).1 = ((command.program guards).run (observe false) []).1 := by
  cases hooked with
  | false => rfl
  | true =>
    cases command with
    | read resource | write resource => rfl
    | drop resource =>
      simp only [Command.program]
      split <;> rfl

/-- One thread waits for another one that has a guard in its way. -/
theorem waits_iff : waits hooked state one other = true ↔ ∃ command rest, (state one).commands = command :: rest ∧
    ∃ guard ∈ (state other).guards, obstructs hooked command guard = true := by
  simp only [waits]
  cases (state one).commands with
  | nil => simp only [reduceCtorEq, false_and, exists_false, Bool.false_eq_true]
  | cons command rest =>
    simp only [List.any_eq_true, List.cons.injEq, ← program_blocks (state one).guards]
    constructor
    · rintro ⟨effect, performed, guard, isHeld, blocks⟩
      exact ⟨command, rest, ⟨rfl, rfl⟩, guard, isHeld, effect, performed, blocks⟩
    · rintro ⟨_, _, ⟨rfl, rfl⟩, guard, isHeld, effect, performed, blocks⟩
      exact ⟨effect, performed, guard, isHeld, blocks⟩

/-- A thread waits to read a lock, and another one holds the lock for reading only. -/
def ReadsBehindReader (state : Thread → ThreadState) (one other : Thread) : Prop :=
  ∃ resource rest, (state one).commands = .read resource :: rest ∧
    ∀ guard ∈ (state other).guards, guard.resource = resource → guard.mode = .shared

/-- A wait that is not one of a reader behind a reader. -/
def GenuinelyWaits (state : Thread → ThreadState) (one other : Thread) : Prop :=
  waits true state one other = true ∧ ¬ ReadsBehindReader state one other

/-- The real locks make a thread wait exactly where the hook does and the wait is genuine. -/
theorem waits_real_iff : waits false state one other = true ↔ GenuinelyWaits state one other := by
  rw [GenuinelyWaits, waits_iff, waits_iff]
  constructor
  · rintro ⟨command, rest, isNext, guard, isHeld, obstructed⟩
    cases command with
    | drop resource => cases obstructed
    | write resource =>
      simp only [obstructs, asks, Bool.false_or, Bool.and_eq_true, beq_iff_eq] at obstructed
      refine ⟨⟨_, rest, isNext, guard, isHeld, ?_⟩, ?_⟩
      · simp only [obstructs, asks, obstructed.1, beq_self_eq_true, Bool.true_or, Bool.and_self]
      · rintro ⟨resource', rest', isRead, -⟩
        rw [isNext] at isRead
        cases isRead
    | read resource =>
      simp only [obstructs, asks, Bool.false_or, Bool.and_eq_true, beq_iff_eq] at obstructed
      obtain ⟨isResource, conflicts⟩ := obstructed
      refine ⟨⟨_, rest, isNext, guard, isHeld, ?_⟩, ?_⟩
      · simp only [obstructs, asks, isResource, beq_self_eq_true, Bool.true_or, Bool.and_self]
      · rintro ⟨resource', rest', isRead, shared⟩
        rw [isNext] at isRead
        cases isRead
        rw [shared guard isHeld isResource] at conflicts
        cases conflicts
  · rintro ⟨⟨command, rest, isNext, guard, isHeld, obstructed⟩, genuine⟩
    cases command with
    | drop resource => cases obstructed
    | write resource =>
      simp only [obstructs, asks, Bool.true_or, Bool.and_true] at obstructed
      refine ⟨_, rest, isNext, guard, isHeld, ?_⟩
      simp only [obstructs, asks, obstructed, Bool.false_or, Bool.true_and]
      cases guard.mode <;> rfl
    | read resource =>
      by_contra unobstructed
      refine genuine ⟨resource, rest, isNext, fun other isHeld isResource => ?_⟩
      cases isMode : other.mode with
      | shared => rfl
      | exclusive =>
        refine absurd ⟨_, rest, isNext, other, isHeld, ?_⟩ unobstructed
        simp only [obstructs, asks, isResource, isMode, beq_self_eq_true, Bool.false_or, Bool.true_and]
        rfl

variable [Fintype Thread] [DecidableEq Thread]

/-- A step that the hook grants, the real locks grant as well. -/
theorem threadStep_real {thread : Thread} (stepped : threadStep true state thread = some next) :
    threadStep false state thread = some next := by
  simp only [threadStep] at stepped ⊢
  cases isNext : (state thread).commands with
  | nil =>
    rw [isNext] at stepped
    cases stepped
  | cons command rest =>
    simp only [isNext] at stepped ⊢
    split at stepped
    · next free =>
      rw [program_result] at stepped
      rw [if_pos fun other => ?_]
      · exact stepped
      · by_contra waits
        have waitsHooked := (waits_real_iff.mp (Bool.not_eq_false _ ▸ waits)).1
        rw [free other] at waitsHooked
        cases waitsHooked
    · cases stepped

/-- Every run under the hook is a run of the real locks. -/
theorem run_real {schedule : List Thread} {state final : Thread → ThreadState}
    (reached : run? (threadStep true) state schedule = some final) :
    run? (threadStep false) state schedule = some final := by
  induction schedule generalizing state with
  | nil => exact reached
  | cons thread rest ih =>
    obtain ⟨next, stepped, onward⟩ := Option.bind_eq_some_iff.mp reached
    rw [run?, threadStep_real stepped]
    exact ih onward

/-- The threads before their first step. -/
def initially (commands : Thread → List Command) (thread : Thread) : ThreadState := { commands := commands thread }

/-- These threads can reach a state with a cycle of this relation. -/
def CanReachCycle (hooked : Bool) (commands : Thread → List Command)
    (relation : (Thread → ThreadState) → Thread → Thread → Prop) : Prop :=
  ∃ schedule state, run? (threadStep hooked) (initially commands) schedule = some state ∧
    ∃ thread, Relation.TransGen (relation state) thread thread

/-- A state with a cycle of waiting threads can be reached. -/
def CanDeadlock (hooked : Bool) (commands : Thread → List Command) : Prop :=
  CanReachCycle hooked commands fun state one other => waits hooked state one other = true

/-- No command of the sequence acquires a lock that its thread holds, or drops a guard that it has not. -/
def wellFormed (held : List UInt64) : List Command → Bool
  | [] => true
  | .read resource :: rest | .write resource :: rest => resource ∉ held && wellFormed (resource :: held) rest
  | .drop resource :: rest => resource ∈ held && wellFormed (held.erase resource) rest

/-- **Deadlocks under the exclusive boundary.** A state that is reached under the hook is reached by the same schedule
of the real locks, and a cycle of waiting threads there is one of the real locks if and only if it is one of genuine
waits. So threads that deadlock under the hook deadlock under the real locks too, if they can reach a
cycle without a reader that waits behind a reader. -/
theorem reported_deadlocks_real (commands : Thread → List Command) :
    (∀ schedule state, run? (threadStep true) (initially commands) schedule = some state →
      run? (threadStep false) (initially commands) schedule = some state ∧
        ∀ thread, Relation.TransGen (waits false state · ·) thread thread ↔
          Relation.TransGen (GenuinelyWaits state) thread thread) ∧
    ((CanDeadlock true commands → CanReachCycle true commands GenuinelyWaits) →
      CanDeadlock true commands → CanDeadlock false commands) := by
  have sameWaits : ∀ state : Thread → ThreadState,
      (fun one other => waits false state one other = true) = GenuinelyWaits state := by
    intro state
    funext one other
    exact propext waits_real_iff
  constructor
  · intro schedule state reached
    refine ⟨run_real reached, fun thread => ?_⟩
    rw [← sameWaits]
  · intro genuine deadlocks
    obtain ⟨schedule, state, reached, thread, cycle⟩ := genuine deadlocks
    rw [← sameWaits] at cycle
    exact ⟨schedule, state, run_real reached, thread, cycle⟩

/-- Two threads that write two locks in opposite orders. -/
def writersCross : Bool → List Command
  | false => [.write 0, .write 1]
  | true => [.write 1, .write 0]

/-- Two threads that wait for each other. -/
theorem cross_cycle {relation : Bool → Bool → Prop} (one : relation false true) (other : relation true false) :
    Relation.TransGen relation false false := .tail (.single one) other

theorem reported_deadlocks_real_writers :
    (∀ thread, wellFormed [] (writersCross thread) = true) ∧ CanDeadlock false writersCross := by
  refine ⟨by decide, (reported_deadlocks_real writersCross).2 (fun _ => ?_) ?_⟩
  · exact ⟨[false, true], _, rfl, false, cross_cycle (waits_real_iff.mp rfl) (waits_real_iff.mp rfl)⟩
  · exact ⟨[false, true], _, rfl, false, cross_cycle rfl rfl⟩

/-- Nobody has written, and nobody is going to. -/
def OnlyReads (state : Thread → ThreadState) : Prop :=
  ∀ thread, (∀ resource, .write resource ∉ (state thread).commands) ∧ ∀ guard ∈ (state thread).guards,
      guard.mode = .shared

omit [Fintype Thread] in
/-- What a command without a write leaves is held for reading. -/
theorem result_shared {guards later : List Guard} {command : Command} (isRead : ∀ resource, command ≠ .write resource)
    (shared : ∀ guard ∈ guards, guard.mode = .shared)
    (ran : ((command.program guards).run (observe hooked) []).1 = some later) : ∀ guard ∈ later,
        guard.mode = .shared := by
  rw [program_result] at ran
  cases command with
  | write resource => exact absurd rfl (isRead resource)
  | read resource =>
    cases ran
    intro guard isHeld
    rcases List.mem_cons.mp isHeld with rfl | earlier
    · rfl
    · exact shared guard earlier
  | drop resource =>
    simp only [Command.program] at ran
    split at ran
    · cases ran
      exact fun guard isHeld => shared guard (List.mem_of_mem_erase isHeld)
    · cases ran
      exact shared

theorem OnlyReads.step {thread : Thread} (only : OnlyReads state)
    (stepped : threadStep hooked state thread = some next) :
    OnlyReads next := by
  simp only [threadStep] at stepped
  cases isNext : (state thread).commands with
  | nil =>
    rw [isNext] at stepped
    cases stepped
  | cons command rest =>
    simp only [isNext] at stepped
    split at stepped
    · obtain ⟨guards, ran, rfl⟩ := Option.map_eq_some_iff.mp stepped
      obtain ⟨noWrite, shared⟩ := only thread
      rw [isNext] at noWrite
      refine (Function.forall_update_iff state fun _ (later : ThreadState) =>
        (∀ resource, .write resource ∉ later.commands) ∧ ∀ guard ∈ later.guards,
            guard.mode = .shared).mpr ⟨⟨?_, ?_⟩, ?_⟩
      · exact fun resource isWrite => noWrite resource (List.mem_cons_of_mem _ isWrite)
      · refine result_shared (fun resource isWrite => noWrite resource ?_) shared ran
        exact isWrite ▸ List.mem_cons_self
      · exact fun other _ => only other
    · cases stepped

omit [Fintype Thread] [DecidableEq Thread] in
/-- Threads that only read never wait for each other. -/
theorem OnlyReads.never_waits (only : OnlyReads state) : waits false state one other = false := by
  by_contra waiting
  obtain ⟨command, rest, isNext, guard, isHeld, obstructed⟩ := waits_iff.mp (Bool.not_eq_false _ ▸ waiting)
  have shared := (only other).2 guard isHeld
  cases command with
  | drop resource => cases obstructed
  | write resource =>
    apply (only one).1 resource
    rw [isNext]
    exact List.mem_cons_self
  | read resource =>
    simp only [obstructs, asks, shared, Bool.false_or, Bool.and_eq_true] at obstructed
    cases obstructed.2

theorem readers_never_deadlock {commands : Thread → List Command}
    (noWrite : ∀ thread resource, .write resource ∉ commands thread) : ¬ CanDeadlock false commands := by
  rintro ⟨schedule, state, reached, thread, cycle⟩
  have only : OnlyReads state := by
    refine run?_invariant OnlyReads (fun thread => ⟨noWrite thread, fun _ isHeld => absurd isHeld List.not_mem_nil⟩)
      (fun _ _ _ _ only stepped => only.step stepped) reached (fun _ _ => trivial)
  obtain ⟨other, waiting, -⟩ := Relation.TransGen.head'_iff.mp cycle
  rw [only.never_waits] at waiting
  cases waiting

/-- Two threads that read two locks in opposite orders. -/
def readersCross : Bool → List Command
  | false => [.read 0, .read 1]
  | true => [.read 1, .read 0]

/-- Under the hook two readers deadlock that never wait for each other. -/
theorem readers_deadlock_invented :
    ¬ ∀ commands : Bool → List Command, (∀ thread, wellFormed [] (commands thread) = true) →
      CanDeadlock true commands → CanDeadlock false commands := by
  intro sound
  have noWrite : ∀ thread resource, .write resource ∉ readersCross thread := by
    intro thread resource
    cases thread <;> simp [readersCross]
  exact readers_never_deadlock noWrite
    (sound readersCross (by decide) ⟨[false, true], _, rfl, false, cross_cycle rfl rfl⟩)

end Laplace.Soundness.ReaderCycles
