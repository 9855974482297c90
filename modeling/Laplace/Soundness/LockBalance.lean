import Laplace.Model.StdLocks

/-! # The balance of a lock hook

Every acquisition that the hook was told of is matched by a release when its guard is dropped, except for a guard
that is dropped while its thread panics, which reports nothing, and for a call that the hook granted and that
panicked since the real lock was still taken.
-/

namespace Laplace.Soundness.LockBalance

open Laplace.Machine Laplace.Model.StdLocks

variable {Process : Type}

/-- Where a use of a lock stands. -/
inductive Phase where
  | quiet
  /-- The acquisition is reported, and the real lock is not held yet. -/
  | granted (resource : UInt64)
  /-- The real lock is held, and the acquisition is not reported yet. -/
  | got (resource : UInt64) (mode : Mode)
  | holding (resource : UInt64) (mode : Mode)
  /-- The release is reported, and the real lock is still held. -/
  | returned (resource : UInt64) (mode : Mode)
  | matched (resource : UInt64)
  /-- The real lock was given up, and no release was reported. -/
  | abandoned (resource : UInt64)
  /-- The acquisition was reported, and the call panicked. -/
  | contended (resource : UInt64)
deriving DecidableEq

namespace Phase

/-- The resource whose acquisition was reported. -/
def acquired : Phase → Option UInt64
  | .granted resource | .holding resource _ | .returned resource _ | .matched resource | .abandoned resource
  | .contended resource => some resource
  | .quiet | .got .. => none

/-- The resource whose release was reported. -/
def released : Phase → Option UInt64
  | .returned resource _ | .matched resource => some resource
  | _ => none

/-- The real lock that is held. -/
def holds : Phase → Option (UInt64 × Mode)
  | .got resource mode | .holding resource mode | .returned resource mode => some (resource, mode)
  | _ => none

/-- The real lock is granted. -/
def grant (resource : UInt64) (mode : Mode) : Phase → Option Phase
  | .quiet => some (.got resource mode)
  | .granted resource' => if resource' = resource then some (.holding resource mode) else none
  | _ => none

/-- The real lock is refused. -/
def refuse (resource : UInt64) : Phase → Option Phase
  | .quiet => some .quiet
  | .granted resource' => if resource' = resource then some (.contended resource) else none
  | _ => none

def report : Phase → LockEvent → Option Phase
  | .quiet, .acquire resource => some (.granted resource)
  | .got resource mode, .acquire resource' => if resource' = resource then some (.holding resource mode) else none
  | .holding resource mode, .release resource' => if resource' = resource then some (.returned resource mode) else none
  | _, _ => none

def give (resource : UInt64) (mode : Mode) (panicking : Bool) : Phase → Option Phase
  | .returned resource' mode' =>
      if resource' = resource ∧ mode' = mode ∧ panicking = false then some (.matched resource) else none
  | .holding resource' mode' =>
      if resource' = resource ∧ mode' = mode ∧ panicking = true then some (.abandoned resource) else none
  | _ => none

def after (phase : Phase) : (effect : Effect) → effect.Reply → Option Phase
  | .lockHook, _ | .spawnHook, _ => some phase
  | .report event, _ => phase.report event
  | .take resource mode, _ => phase.grant resource mode
  | .tryTake resource mode, .acquired _ => phase.grant resource mode
  | .tryTake resource _, .wouldBlock => phase.refuse resource
  | .give resource mode panicking, _ => phase.give resource mode panicking

/-- The phase that suits a use between two operations. -/
def Rest (phase : Phase) : Use → Prop
  | .idle | .failed => phase = .quiet
  | .held guard => phase = .holding guard.resource guard.mode
  | .panicked resource _ => phase = .contended resource
  | .dropped guard panicking => phase = if panicking then .abandoned guard.resource else .matched guard.resource

end Phase

/-- A call that has panicked does nothing more. -/
def permits (phase : Phase) (_ : Effect) : Prop := ∀ resource, phase ≠ .contended resource

/-- The lock hook is installed. -/
def possible : (effect : Effect) → effect.Reply → Prop
  | .lockHook, installed => installed = true
  | _, _ => True

def protocol : Protocol Effect Effect.Reply Phase where
  permits := permits
  possible := possible
  after := Phase.after

abbrev StdLockConforms {α : Type} (rest : Phase → α → Prop) (phase : Phase) (program : StdLockM α) : Prop :=
  program.Conforms protocol rest phase

section Conformance

variable {resource : UInt64} {mode : Mode} {message : String} {guard : Guard} {panicking : Bool}

theorem acquire_conforms :
    StdLockConforms (fun later result => later.Rest (.acquired resource result)) .quiet
      (acquire mode message resource) := by
  refine ⟨nofun, fun hooked isHooked => ⟨.quiet, rfl, ?_⟩⟩
  obtain rfl : hooked = true := isHooked
  refine ⟨nofun, fun _ _ => ⟨.granted resource, rfl, ?_⟩⟩
  refine ⟨nofun, fun spawns _ => ⟨.granted resource, rfl, ?_⟩⟩
  cases spawns with
  | true =>
    refine ⟨nofun, fun answer _ => ?_⟩
    cases answer with
    | acquired poisoned => exact ⟨.holding resource mode, if_pos rfl, rfl⟩
    | wouldBlock => exact ⟨.contended resource, if_pos rfl, rfl⟩
  | false => exact ⟨nofun, fun poisoned _ => ⟨.holding resource mode, if_pos rfl, rfl⟩⟩

theorem tryAcquire_conforms :
    StdLockConforms (fun later result => later.Rest (.attempted result)) .quiet (tryAcquire mode resource) := by
  refine ⟨nofun, fun answer _ => ?_⟩
  cases answer with
  | acquired poisoned =>
    refine ⟨.got resource mode, rfl, nofun, fun hooked isHooked => ⟨.got resource mode, rfl, ?_⟩⟩
    obtain rfl : hooked = true := isHooked
    exact ⟨nofun, fun _ _ => ⟨.holding resource mode, if_pos rfl, rfl⟩⟩
  | wouldBlock => exact ⟨.quiet, rfl, rfl⟩

theorem drop_conforms :
    StdLockConforms (fun later _ => later.Rest (.dropped guard panicking)) (.holding guard.resource guard.mode)
      (guard.drop panicking) := by
  cases panicking with
  | true => exact ⟨nofun, fun _ _ => ⟨.abandoned guard.resource, if_pos ⟨rfl, rfl, rfl⟩, rfl⟩⟩
  | false =>
    refine ⟨nofun, fun hooked isHooked => ⟨.holding guard.resource guard.mode, rfl, ?_⟩⟩
    obtain rfl : hooked = true := isHooked
    refine ⟨nofun, fun _ _ => ⟨.returned guard.resource guard.mode, if_pos rfl, ?_⟩⟩
    exact ⟨nofun, fun _ _ => ⟨.matched guard.resource, if_pos ⟨rfl, rfl, rfl⟩, rfl⟩⟩

theorem start_conforms {phase : Phase} {use : Use} {operation : Operation} {program : StdLockM Use}
    (started : start use operation = some program) (rest : phase.Rest use) :
    StdLockConforms (fun later use => later.Rest use) phase program := by
  cases use <;> cases operation <;> try cases started
  case idle.lock | idle.read | idle.write =>
    obtain rfl : phase = .quiet := rest
    exact acquire_conforms.bind fun _ _ rested => rested
  case idle.tryLock | idle.tryRead | idle.tryWrite =>
    obtain rfl : phase = .quiet := rest
    exact tryAcquire_conforms.bind fun _ _ rested => rested
  case held.drop guard panicking =>
    obtain rfl : phase = .holding guard.resource guard.mode := rest
    exact drop_conforms.bind fun _ _ rested => rested

end Conformance

section Invariant

variable [DecidableEq Process]

/-- How often a process reported something. -/
def count (world : World Process) (process : Process) (event : LockEvent) : ℕ := world.trace.count (process, event)

/-- What the hook was told by one process, and what it holds, by its phase. -/
structure Stands (world : World Process) (process : Process) (phase : Phase) : Prop where
  acquired : ∀ resource, count world process (.acquire resource) = if phase.acquired = some resource then 1 else 0
  released : ∀ resource, count world process (.release resource) = if phase.released = some resource then 1 else 0
  held : ∀ resource mode, (process, resource, mode) ∈ world.holders ↔ phase.holds = some (resource, mode)

def Invariant (world : World Process) (phases : Process → Phase) : Prop :=
  ∀ process, Stands world process (phases process)

variable {world : World Process} {phases : Process → Phase} {process other : Process} {phase later : Phase}
  {resource : UInt64} {mode : Mode}

theorem count_record (world : World Process) (process other : Process) (event event' : LockEvent) :
    count (world.record process event) other event' =
      count world other event' + if (process, event) = (other, event') then 1 else 0 := by
  simp only [count, World.record, List.count_append, List.count_singleton, beq_iff_eq]

/-- A report of another process changes nothing for this one. -/
theorem Stands.recorded (stands : Stands world other phase) (different : other ≠ process) (event : LockEvent) :
    Stands (world.record process event) other phase := by
  have apart : ∀ event', (process, event) ≠ (other, event') := fun _ same => different (congrArg Prod.fst same).symm
  constructor
  · intro resource
    rw [count_record, if_neg (apart _), Nat.add_zero]
    exact stands.acquired resource
  · intro resource
    rw [count_record, if_neg (apart _), Nat.add_zero]
    exact stands.released resource
  · exact stands.held

/-- The three reports of a use, by its phase. -/
theorem report_cases {event : LockEvent} (moved : phase.report event = some later) :
    (∃ resource, phase = .quiet ∧ event = .acquire resource ∧ later = .granted resource) ∨
    (∃ resource mode, phase = .got resource mode ∧ event = .acquire resource ∧ later = .holding resource mode) ∨
    ∃ resource mode, phase = .holding resource mode ∧ event = .release resource ∧
        later = .returned resource mode := by
  unfold Phase.report at moved
  split at moved
  · next resource => exact .inl ⟨resource, rfl, rfl, (Option.some.inj moved).symm⟩
  · next resource mode resource' =>
    split at moved
    · next same => exact .inr (.inl ⟨resource, mode, rfl, congrArg _ same, (Option.some.inj moved).symm⟩)
    · cases moved
  · next resource mode resource' =>
    split at moved
    · next same => exact .inr (.inr ⟨resource, mode, rfl, congrArg _ same, (Option.some.inj moved).symm⟩)
    · cases moved
  · cases moved

/-- What a report changes of a phase. -/
theorem report_changes {event : LockEvent} (moved : phase.report event = some later) :
    later.holds = phase.holds ∧
      ((∃ resource, event = .acquire resource ∧ phase.acquired = none ∧ later.acquired = some resource ∧
          later.released = phase.released) ∨
        ∃ resource, event = .release resource ∧ phase.released = none ∧ later.released = some resource ∧
          later.acquired = phase.acquired) := by
  rcases report_cases moved with ⟨resource, rfl, rfl, rfl⟩ | ⟨resource, mode, rfl, rfl, rfl⟩ |
    ⟨resource, mode, rfl, rfl, rfl⟩
  · exact ⟨rfl, .inl ⟨resource, rfl, rfl, rfl, rfl⟩⟩
  · exact ⟨rfl, .inl ⟨resource, rfl, rfl, rfl, rfl⟩⟩
  · exact ⟨rfl, .inr ⟨resource, rfl, rfl, rfl, rfl⟩⟩

theorem Stands.reported (stands : Stands world process phase) {event : LockEvent}
    (moved : phase.report event = some later) : Stands (world.record process event) process later := by
  obtain ⟨sameHolds, ⟨resource, rfl, before, after, released⟩ | ⟨resource, rfl, before, after, acquired⟩⟩ :=
    report_changes moved
  · constructor
    · intro resource'
      rw [count_record, stands.acquired, before, after]
      simp only [reduceCtorEq, if_false, Nat.zero_add, Prod.mk.injEq, true_and, LockEvent.acquire.injEq,
          Option.some.injEq]
    · intro resource'
      rw [count_record, stands.released, released]
      simp only [Prod.mk.injEq, reduceCtorEq, and_false, if_false, Nat.add_zero]
    · rw [sameHolds]
      exact stands.held
  · constructor
    · intro resource'
      rw [count_record, stands.acquired, acquired]
      simp only [Prod.mk.injEq, reduceCtorEq, and_false, if_false, Nat.add_zero]
    · intro resource'
      rw [count_record, stands.released, before, after]
      simp only [reduceCtorEq, if_false, Nat.zero_add, Prod.mk.injEq, true_and, LockEvent.release.injEq,
          Option.some.injEq]
    · rw [sameHolds]
      exact stands.held

/-- The real lock is granted before its acquisition is reported, or after it. -/
theorem grant_cases (moved : phase.grant resource mode = some later) :
    (phase = .quiet ∧ later = .got resource mode) ∨ (phase = .granted resource ∧ later = .holding resource mode) := by
  unfold Phase.grant at moved
  split at moved
  · exact .inl ⟨rfl, (Option.some.inj moved).symm⟩
  · split at moved
    · next same => exact .inr ⟨congrArg _ same, (Option.some.inj moved).symm⟩
    · cases moved
  · cases moved

/-- Only the refusal of a granted lock changes a phase. -/
theorem refuse_cases (moved : phase.refuse resource = some later) :
    (phase = .quiet ∧ later = .quiet) ∨ (phase = .granted resource ∧ later = .contended resource) := by
  unfold Phase.refuse at moved
  split at moved
  · exact .inl ⟨rfl, (Option.some.inj moved).symm⟩
  · split at moved
    · next same => exact .inr ⟨congrArg _ same, (Option.some.inj moved).symm⟩
    · cases moved
  · cases moved

/-- The real guard is dropped after the release was reported, or without a report. -/
theorem give_cases {panicking : Bool} (moved : phase.give resource mode panicking = some later) :
    (phase = .returned resource mode ∧ later = .matched resource) ∨
      (phase = .holding resource mode ∧ later = .abandoned resource) := by
  unfold Phase.give at moved
  split at moved
  · split at moved
    · next same =>
      obtain ⟨rfl, rfl, -⟩ := same
      exact .inl ⟨rfl, (Option.some.inj moved).symm⟩
    · cases moved
  · split at moved
    · next same =>
      obtain ⟨rfl, rfl, -⟩ := same
      exact .inr ⟨rfl, (Option.some.inj moved).symm⟩
    · cases moved
  · cases moved

theorem Stands.granted (stands : Stands world process phase) (moved : phase.grant resource mode = some later) :
    Stands (world.hold process resource mode) process later := by
  have holds : ∀ before : phase.holds = none, ∀ resource' mode',
      (process, resource', mode') ∈ (world.hold process resource mode).holders ↔
        some (resource, mode) = some (resource', mode') := by
    intro before resource' mode'
    have earlier := stands.held resource' mode'
    rw [before] at earlier
    simp only [World.hold, List.mem_cons, earlier, Prod.mk.injEq, true_and, Option.some.injEq, reduceCtorEq,
      or_false, eq_comm]
  rcases grant_cases moved with ⟨rfl, rfl⟩ | ⟨rfl, rfl⟩
  · exact ⟨stands.acquired, stands.released, holds rfl⟩
  · exact ⟨stands.acquired, stands.released, holds rfl⟩

theorem Stands.gave (stands : Stands world process phase) {panicking : Bool}
    (moved : phase.give resource mode panicking = some later) :
    Stands (world.give process resource mode panicking) process later := by
  have holds : ∀ before : phase.holds = some (resource, mode), ∀ resource' mode',
      (process, resource', mode') ∈ (world.give process resource mode panicking).holders ↔
        none = some (resource', mode') := by
    intro before resource' mode'
    have earlier := stands.held resource' mode'
    rw [before, Option.some.injEq, Prod.mk.injEq] at earlier
    simp only [World.give, List.mem_filter, earlier, ne_eq, Prod.mk.injEq, true_and, decide_not,
      Bool.not_eq_true', decide_eq_false_iff_not, reduceCtorEq, iff_false, not_and]
    rintro ⟨rfl, rfl⟩ different
    exact different rfl rfl
  rcases give_cases moved with ⟨rfl, rfl⟩ | ⟨rfl, rfl⟩
  · exact ⟨stands.acquired, stands.released, holds rfl⟩
  · exact ⟨stands.acquired, stands.released, holds rfl⟩

/-- A real lock that another process gets or gives up changes nothing for this one. -/
theorem Stands.held_elsewhere (stands : Stands world other phase) {world' : World Process}
    (trace : world'.trace = world.trace)
    (holders : ∀ resource mode, (other, resource, mode) ∈ world'.holders ↔ (other, resource, mode) ∈ world.holders) :
    Stands world' other phase := by
  constructor
  · intro resource
    rw [count, trace]
    exact stands.acquired resource
  · intro resource
    rw [count, trace]
    exact stands.released resource
  · intro resource mode
    rw [holders]
    exact stands.held resource mode

theorem Stands.hold (stands : Stands world other phase) (different : other ≠ process) (resource : UInt64)
    (mode : Mode) :
    Stands (world.hold process resource mode) other phase := by
  refine stands.held_elsewhere rfl fun resource mode => ?_
  simp [World.hold, different]

theorem Stands.give (stands : Stands world other phase) (different : other ≠ process) (resource : UInt64)
    (mode : Mode)
    (panicking : Bool) : Stands (world.give process resource mode panicking) other phase := by
  refine stands.held_elsewhere rfl fun resource mode => ?_
  simp [World.give, different]

/-- The phase of one process moves, and the others stay. -/
theorem Invariant.moves (holds : Invariant world phases) {world' : World Process}
    (own : Stands world' process later) (others : ∀ other, other ≠ process → Stands world other (phases other) →
      Stands world' other (phases other)) : Invariant world' (Function.update phases process later) := by
  intro other
  rcases eq_or_ne other process with rfl | different
  · rwa [Function.update_self]
  · rw [Function.update_of_ne different]
    exact others other different (holds other)

theorem Invariant.unchanged (holds : Invariant world phases) :
    Invariant world (Function.update phases process (phases process)) := by
  rwa [Function.update_eq_self]

/-- A refusal changes nothing but the phase. -/
theorem Stands.refused (stands : Stands world process phase) (moved : phase.refuse resource = some later) :
    Stands world process later := by
  rcases refuse_cases moved with ⟨rfl, rfl⟩ | ⟨rfl, rfl⟩
  · exact stands
  · exact ⟨stands.acquired, stands.released, stands.held⟩

/-- Every effect keeps the invariant. -/
theorem stdLocks_keeps (grants : List LockEvent → UInt64 → Bool) (engine : Bool) :
    (stdLocks grants engine : System _ _ Process _ _ _ _).Keeps protocol Invariant := by
  intro world phases process effect choice reply next holds answered
  cases effect with
  | lockHook | spawnHook =>
    obtain ⟨rfl, rfl⟩ := Prod.mk.inj (Option.some.inj answered)
    refine ⟨by trivial, fun later _ moved => ?_⟩
    cases moved
    exact holds.unchanged
  | report event =>
    cases event with
    | acquire resource =>
      simp only [stdLocks, World.answer] at answered
      split at answered
      · obtain ⟨rfl, rfl⟩ := Prod.mk.inj (Option.some.inj answered)
        refine ⟨trivial, fun later _ moved => ?_⟩
        apply holds.moves ((holds process).reported moved)
        exact fun other different stands => stands.recorded different _
      · cases answered
    | release resource =>
      obtain ⟨rfl, rfl⟩ := Prod.mk.inj (Option.some.inj answered)
      refine ⟨trivial, fun later _ moved => ?_⟩
      apply holds.moves ((holds process).reported moved)
      exact fun other different stands => stands.recorded different _
  | take resource mode =>
    simp only [stdLocks, World.answer] at answered
    split at answered
    · obtain ⟨rfl, rfl⟩ := Prod.mk.inj (Option.some.inj answered)
      refine ⟨trivial, fun later _ moved => ?_⟩
      apply holds.moves ((holds process).granted moved)
      exact fun other different stands => stands.hold different resource mode
    · cases answered
  | tryTake resource mode =>
    simp only [stdLocks, World.answer] at answered
    split at answered
    · obtain ⟨rfl, rfl⟩ := Prod.mk.inj (Option.some.inj answered)
      refine ⟨trivial, fun later _ moved => ?_⟩
      apply holds.moves ((holds process).granted moved)
      exact fun other different stands => stands.hold different resource mode
    · obtain ⟨rfl, rfl⟩ := Prod.mk.inj (Option.some.inj answered)
      refine ⟨trivial, fun later _ moved => ?_⟩
      apply holds.moves ((holds process).refused moved)
      exact fun other _ stands => stands
  | give resource mode panicking =>
    obtain ⟨rfl, rfl⟩ := Prod.mk.inj (Option.some.inj answered)
    refine ⟨trivial, fun later _ moved => ?_⟩
    apply holds.moves ((holds process).gave moved)
    exact fun other different stands => stands.give different resource mode panicking

end Invariant

section Runs

variable [DecidableEq Process]

abbrev Config (Process : Type) := System.Config Effect Effect.Reply Process Use (World Process)

/-- No lock is used yet. -/
def unused : Config Process := ⟨{}, fun _ => .done .idle⟩

variable {grants : List LockEvent → UInt64 → Bool} {engine : Bool} {config : Config Process}
  {actions : List (System.Action Process Operation Bool)}

theorem invariant_of_run (reached : run? (stdLocks grants engine).step unused actions = some config) :
    ∃ phases : Process → Phase, System.Phased protocol (fun later use => later.Rest use) Invariant config phases := by
  have begins : System.Phased protocol (fun later use => later.Rest use) Invariant
      (unused : Config Process) fun _ => .quiet := by
    refine ⟨fun process => ?_, fun _ => rfl⟩
    constructor
    · exact fun _ => rfl
    · exact fun _ => rfl
    · exact fun _ _ => ⟨nofun, nofun⟩
  exact System.phases_of_run (fun _ _ _ _ _ started rest => start_conforms started rest)
    (stdLocks_keeps grants engine) begins reached

/-- How often the hook was told something. -/
def total (world : World Process) (event : LockEvent) : ℕ := (world.trace.map Prod.snd).count event

/-- What the hook was told, it was told by some process. -/
theorem total_eq_sum [Fintype Process] (world : World Process) (event : LockEvent) :
    total world event = ∑ process, count world process event := by
  obtain ⟨holders, poisoned, trace⟩ := world
  simp only [total, count]
  induction trace with
  | nil => simp
  | cons entry rest ih =>
    obtain ⟨process, event'⟩ := entry
    simp only [List.map_cons, List.count_cons, ih, Finset.sum_add_distrib, beq_iff_eq, Prod.mk.injEq, ite_and]
    simp

/-- No guard is alive, and no call runs. -/
def Quiescent (config : Config Process) : Prop :=
  ∀ process, ∃ use, config.program process = .done use ∧ ∀ guard, use ≠ .held guard

/-- A use of the resource that ended without a report of its release: its guard was dropped in a panic, or its call
panicked. -/
def unreleased (config : Config Process) (resource : UInt64) (process : Process) : Bool :=
  match config.program process with
  | .done (.dropped guard panicking) => panicking && guard.resource == resource
  | .done (.panicked resource' _) => resource' == resource
  | _ => false

omit [DecidableEq Process] in
/-- A use that is over has reported its release, or is left unreleased. -/
theorem matched_or_unreleased {phase : Phase} {process : Process} {use : Use} {resource : UInt64}
    (idle : config.program process = .done use) (rest : phase.Rest use) (free : ∀ guard, use ≠ .held guard) :
    (if phase.acquired = some resource then 1 else 0) =
      (if phase.released = some resource then 1 else 0) + if unreleased config resource process then 1 else 0 := by
  simp only [unreleased, idle]
  cases use with
  | idle | failed =>
    obtain rfl : phase = .quiet := rest
    rfl
  | held guard => exact absurd rfl (free guard)
  | panicked resource' message =>
    obtain rfl : phase = .contended resource' := rest
    simp [Phase.acquired, Phase.released]
  | dropped guard panicking =>
    cases panicking with
    | true =>
      obtain rfl : phase = .abandoned guard.resource := rest
      simp [Phase.acquired, Phase.released]
    | false =>
      obtain rfl : phase = .matched guard.resource := rest
      simp [Phase.acquired, Phase.released]

/-- **Balance of a lock hook.** The hook is told of one acquisition and one release of every guard that was dropped,
and of no release where its thread panicked. Once no guard is alive, the acquisitions of a resource are its releases
and those guards, and the calls that panicked since a lock was granted that was taken. -/
theorem releases_balance [Fintype Process]
    (reached : run? (stdLocks grants engine).step unused actions = some config) :
    (∀ process guard panicking, config.program process = .done (.dropped guard panicking) →
      count config.shared process (.acquire guard.resource) = 1 ∧
      count config.shared process (.release guard.resource) = if panicking then 0 else 1) ∧
    (Quiescent config → ∀ resource, total config.shared (.acquire resource) =
      total config.shared (.release resource) + (Finset.univ.filter (unreleased config resource ·)).card) := by
  obtain ⟨phases, holds, conform⟩ := invariant_of_run reached
  constructor
  · intro process guard panicking isDropped
    have rest := conform process
    rw [isDropped] at rest
    rw [(holds process).acquired, (holds process).released]
    cases panicking with
    | true =>
      have stands : phases process = .abandoned guard.resource := rest
      rw [stands]
      exact ⟨if_pos rfl, rfl⟩
    | false =>
      have stands : phases process = .matched guard.resource := rest
      rw [stands]
      exact ⟨if_pos rfl, if_pos rfl⟩
  · intro quiescent resource
    rw [total_eq_sum, total_eq_sum, Finset.card_filter, ← Finset.sum_add_distrib]
    apply Finset.sum_congr rfl
    intro process _
    obtain ⟨use, idle, free⟩ := quiescent process
    have rest := conform process
    rw [idle] at rest
    rw [(holds process).acquired, (holds process).released]
    exact matched_or_unreleased idle rest free

/-- A mutex is locked and its guard is dropped, twice, the second time in a panic. -/
def droppedTwice : List (System.Action Bool Operation Bool) :=
  List.flatten [[.start false (.lock 7)], List.replicate 4 (.advance false false), [.start false (.drop false)],
    List.replicate 3 (.advance false false), [.start true (.lock 7)], List.replicate 4 (.advance true false),
    [.start true (.drop true), .advance true false]]

theorem droppedTwice_reached :
    ∃ config, run? (stdLocks (fun _ _ => true) false).step unused droppedTwice = some config ∧
      config.shared.trace = [(false, .acquire 7), (false, .release 7), (true, .acquire 7)] ∧
      ∀ process, config.program process = .done (.dropped ⟨7, .exclusive, false⟩ process) :=
  ⟨_, rfl, rfl, fun process => by cases process <;> rfl⟩

theorem releases_balance_twice :
    ∃ config, run? (stdLocks (fun _ _ => true) false).step unused droppedTwice = some config ∧
      config.shared.trace = [(false, .acquire 7), (false, .release 7), (true, .acquire 7)] ∧
      total config.shared (.acquire 7) =
        total config.shared (.release 7) + (Finset.univ.filter (unreleased config 7 ·)).card := by
  obtain ⟨config, reached, trace, ended⟩ := droppedTwice_reached
  refine ⟨config, reached, trace, (releases_balance reached).2 (fun process => ?_) 7⟩
  exact ⟨_, ended process, nofun⟩

/-- The guard that was dropped in a panic leaves the hook with an acquisition too many. -/
theorem panicking_guard_unreleased :
    ¬ ∀ config, run? (stdLocks (fun _ _ => true) false).step (unused : Config Bool) droppedTwice = some config →
      Quiescent config → ∀ resource, total config.shared (.acquire resource) = total config.shared (.release resource) := by
  intro balanced
  obtain ⟨config, reached, trace, ended⟩ := droppedTwice_reached
  have same := balanced config reached (fun process => ⟨_, ended process, nofun⟩) 7
  rw [total, total, trace] at same
  revert same
  decide

end Runs

end Laplace.Soundness.LockBalance
