import Laplace.Machine.Attribution
import Laplace.Model.ExclusiveLocks

/-! # Overlap of captured exclusive locks

The tracked mutexes report an acquisition while they hold the real lock and a release before they give it
up, so that at most one thread is shown to hold the lock. `ModelMutex::lock` reports before its attempt: a
thread that still waits there is shown as well, and so is one whose guard was dropped while it panicked, since
this drop reports nothing. Nobody else is.
-/

namespace Laplace.Soundness.Overlap

open Laplace.Machine Laplace.Model Laplace.Model.Locking

variable {Thread Process : Type}

/-- Where a use of the lock stands. -/
inductive Phase where
  /-- Nothing is shown, and the real lock is not held. -/
  | quiet
  /-- The same, with a thread id that was read. -/
  | known (id : UInt64)
  /-- The acquisition is shown, and the real lock is not held yet. -/
  | announced (id : UInt64)
  /-- The real lock is held, and the acquisition is not shown yet. -/
  | got (id : Option UInt64)
  | holding (id : UInt64)
  /-- A thread id was read again, for the release. -/
  | releasing (id again : UInt64)
  /-- The release is shown, and the real lock is still held. -/
  | returned
  /-- The real lock is given up, and the acquisition is still shown. -/
  | abandoned (id : UInt64)
deriving DecidableEq

namespace Phase

/-- The thread that the trace shows to hold the lock. -/
def shown : Phase → Option UInt64
  | .announced id | .holding id | .releasing id _ | .abandoned id => some id
  | _ => none

/-- Whether the real lock is held. -/
def holds : Phase → Bool
  | .got _ | .holding _ | .releasing _ _ | .returned => true
  | _ => false

/-- The thread id that was read. -/
def reads : Phase → Option UInt64
  | .quiet | .returned => none
  | .got id => id
  | .known id | .announced id | .holding id | .releasing id _ | .abandoned id => some id

/-- The real lock is granted. -/
def grant : Phase → Option Phase
  | .quiet => some (.got none)
  | .known id => some (.got (some id))
  | .announced id => some (.holding id)
  | _ => none

/-- An event of the lock is reported. -/
def say (resource : String) : Phase → ProbeEvent → Option Phase
  | .known id, .lockAcquired id' resource' =>
      if id' = id ∧ resource' = resource then some (.announced id) else none
  | .got (some id), .lockAcquired id' resource' =>
      if id' = id ∧ resource' = resource then some (.holding id) else none
  | .holding id, .lockReleased id' resource' =>
      if id' = id ∧ resource' = resource then some .returned else none
  | .releasing _ again, .lockReleased id' resource' =>
      if id' = again ∧ resource' = resource then some .returned else none
  | _, _ => none

def read : Phase → UInt64 → Option Phase
  | .quiet, id => some (.known id)
  | .got none, id => some (.got (some id))
  | .holding id, again => some (.releasing id again)
  | _, _ => none

def unlock : Phase → Bool → Option Phase
  | .returned, _ => some .quiet
  | .got (some id), _ => some (.known id)
  | .holding id, true => some (.abandoned id)
  | _, _ => none

def after (resource : String) (phase : Phase) : (effect : Effect) → effect.Reply → Option Phase
  | .currentThreadId, id => phase.read id
  | .lock, _ => phase.grant
  | .tryLock, .acquired _ => phase.grant
  | .pollLock, true => phase.grant
  | .unlock panicking, _ => phase.unlock panicking
  | .emit event, _ => phase.say resource event
  | .tryLock, .wouldBlock => some phase
  | .pollLock, false => some phase
  | .lockHook, _ | .spawnHook, _ | .dropLock, _ => some phase

/-- A thread that is shown before it holds the lock is in `ModelMutex::lock`; one that is shown after
does nothing any more. -/
def permits (wrapper : Wrapper) : Phase → Effect → Prop
  | .announced _, effect => (∃ resource, wrapper = .modelMutex resource) ∧ (effect = .spawnHook ∨ effect = .lock)
  | .abandoned _, _ => False
  | _, _ => True

/-- The phase that suits a use between two operations. -/
def Rest (wrapper : Wrapper) (phase : Phase) : Use → Prop
  | .idle | .future none => phase = .quiet
  | .future (some id) => phase = .known id
  | .held (.model _) => ∃ id, phase = .holding id
  | .held (.tracked id) => phase = .holding id
  | .failed => phase.holds = false ∧ phase.shown = none
  | .dropped panicking => phase = .quiet ∨
      panicking = true ∧ (∃ resource, wrapper = .modelMutex resource) ∧ ∃ id, phase = .abandoned id

end Phase

/-- The hook is installed, and no spawn hook is. -/
def possible : (effect : Effect) → effect.Reply → Prop
  | .lockHook, installed => installed = true
  | .spawnHook, installed => installed = false
  | _, _ => True

def protocol (wrapper : Wrapper) : Protocol Effect Effect.Reply Phase where
  permits := Phase.permits wrapper
  possible := possible
  after := Phase.after wrapper.resource

abbrev MutexConforms {α : Type} (wrapper : Wrapper) (rest : Phase → α → Prop) (phase : Phase)
    (program : MutexM α) : Prop :=
  program.Conforms (protocol wrapper) rest phase

section Conformance

variable {resource : UInt64} {resourceName : String} {poisoned : Bool} {id : UInt64}

theorem modelLock_conforms :
    MutexConforms (.modelMutex resource) (fun later guard => later.Rest (.modelMutex resource) (.held guard)) .quiet
      (ModelMutex.lock resource) := by
  refine ⟨trivial, fun hooked isHooked => ⟨.quiet, rfl, ?_⟩⟩
  obtain rfl : hooked = true := isHooked
  refine ⟨trivial, fun id _ => ⟨.known id, rfl, trivial, fun _ _ => ⟨.announced id, if_pos ⟨rfl, rfl⟩, ?_⟩⟩⟩
  refine ⟨⟨⟨resource, rfl⟩, .inl rfl⟩, fun spawns isSpawn => ⟨.announced id, rfl, ?_⟩⟩
  obtain rfl : spawns = false := isSpawn
  exact ⟨⟨⟨resource, rfl⟩, .inr rfl⟩, fun poisoned _ => ⟨.holding id, rfl, id, rfl⟩⟩

theorem modelTryLock_conforms :
    MutexConforms (.modelMutex resource)
      (fun later guard => later.Rest (.modelMutex resource) (.attempted guard)) .quiet
      (ModelMutex.tryLock resource) := by
  refine ⟨trivial, fun answer _ => ?_⟩
  cases answer with
  | wouldBlock => exact ⟨.quiet, rfl, rfl, rfl⟩
  | acquired poisoned =>
    refine ⟨.got none, rfl, trivial, fun hooked isHooked => ⟨.got none, rfl, ?_⟩⟩
    obtain rfl : hooked = true := isHooked
    exact ⟨trivial, fun id _ => ⟨.got (some id), rfl, trivial, fun _ _ => ⟨.holding id, if_pos ⟨rfl, rfl⟩, id, rfl⟩⟩⟩

theorem modelDrop_conforms (panicking : Bool) :
    MutexConforms (.modelMutex resource) (fun later _ => later.Rest (.modelMutex resource) (.dropped panicking))
      (.holding id) (ModelMutex.dropGuard resource panicking) := by
  cases panicking with
  | true => exact ⟨trivial, fun _ _ => ⟨.abandoned id, rfl, .inr ⟨rfl, ⟨resource, rfl⟩, id, rfl⟩⟩⟩
  | false =>
    refine ⟨trivial, fun hooked isHooked => ⟨.holding id, rfl, ?_⟩⟩
    obtain rfl : hooked = true := isHooked
    refine ⟨trivial, fun again _ => ⟨.releasing id again, rfl, trivial, fun _ _ => ?_⟩⟩
    exact ⟨.returned, if_pos ⟨rfl, rfl⟩, trivial, fun _ _ => ⟨.quiet, rfl, .inl rfl⟩⟩

theorem trackedStdLock_conforms :
    MutexConforms (.trackedStdMutex resourceName)
      (fun later guard => later.Rest (.trackedStdMutex resourceName) (.held guard))
      .quiet (TrackedStdMutex.lock resourceName) := by
  refine ⟨trivial, fun id _ => ⟨.known id, rfl, trivial, fun poisoned _ => ⟨.got (some id), rfl, ?_⟩⟩⟩
  cases poisoned with
  | true => exact ⟨trivial, fun _ _ => ⟨.known id, rfl, trivial, nofun⟩⟩
  | false => exact ⟨trivial, fun _ _ => ⟨.holding id, if_pos ⟨rfl, rfl⟩, rfl⟩⟩

/-- A tracked guard reports its release with the id it kept. -/
theorem dropTracked_conforms {wrapper : Wrapper} (named : wrapper.resource = resourceName) (panicking : Bool) :
    MutexConforms wrapper (fun later _ => later = .quiet) (.holding id) (dropTracked resourceName id panicking) := by
  refine ⟨trivial, fun _ _ => ⟨.returned, if_pos ⟨rfl, named.symm⟩, ?_⟩⟩
  exact ⟨trivial, fun _ _ => ⟨.quiet, rfl, rfl⟩⟩

theorem trackedPoll_conforms {threadId : Option UInt64} {phase : Phase}
    (rest : phase.Rest (.trackedMutex resourceName) (.future threadId)) :
    MutexConforms (.trackedMutex resourceName) (fun later use => later.Rest (.trackedMutex resourceName) use) phase
      (TrackedMutex.poll resourceName threadId) := by
  have polls : ∀ id, MutexConforms (.trackedMutex resourceName)
      (fun later use => later.Rest (.trackedMutex resourceName) use) (.known id) (do
        if ← perform .pollLock then
          perform (.emit (.lockAcquired id resourceName))
          return .held (.tracked id)
        return .future (some id)) := by
    refine fun id => ⟨trivial, fun ready _ => ?_⟩
    cases ready with
    | true => exact ⟨.got (some id), rfl, trivial, fun _ _ => ⟨.holding id, if_pos ⟨rfl, rfl⟩, rfl⟩⟩
    | false => exact ⟨.known id, rfl, rfl⟩
  cases threadId with
  | some id =>
    obtain rfl : phase = .known id := rest
    exact polls id
  | none =>
    obtain rfl : phase = .quiet := rest
    exact ⟨trivial, fun id _ => ⟨.known id, rfl, polls id⟩⟩

/-- Every operation conforms. -/
theorem start_conforms {wrapper : Wrapper} {use : Use} {operation : Operation} {program : MutexM Use} {phase : Phase}
    (started : start wrapper use operation = some program) (rest : phase.Rest wrapper use) :
    MutexConforms wrapper (fun later use => later.Rest wrapper use) phase program := by
  unfold start at started
  split at started
  case h_1 resource =>
    obtain rfl := Option.some.inj started
    obtain rfl : phase = .quiet := rest
    exact modelLock_conforms.bind fun _ _ held => held
  case h_2 resource =>
    obtain rfl := Option.some.inj started
    obtain rfl : phase = .quiet := rest
    exact modelTryLock_conforms.bind fun _ _ attempted => attempted
  case h_3 resource guard panicking =>
    obtain rfl := Option.some.inj started
    obtain ⟨id, rfl⟩ : ∃ id, phase = .holding id := by
      cases guard with
      | model poisoned => exact rest
      | tracked id => exact ⟨id, rest⟩
    exact (modelDrop_conforms panicking).bind fun _ _ dropped => dropped
  case h_4 resourceName =>
    obtain rfl := Option.some.inj started
    obtain rfl : phase = .quiet := rest
    exact trackedStdLock_conforms.bind fun _ _ held => held
  case h_5 =>
    obtain rfl := Option.some.inj started
    exact rest
  case h_6 resourceName threadId =>
    obtain rfl := Option.some.inj started
    exact trackedPoll_conforms rest
  case h_7 =>
    obtain rfl := Option.some.inj started
    obtain rfl : phase = .quiet := rest
    exact ⟨rfl, rfl⟩
  case h_8 id =>
    obtain rfl := Option.some.inj started
    obtain rfl : phase = .known id := rest
    exact ⟨trivial, fun _ _ => ⟨.known id, rfl, rfl, rfl⟩⟩
  case h_9 resourceName id panicking | h_10 resourceName id panicking =>
    obtain rfl := Option.some.inj started
    obtain rfl : phase = .holding id := rest
    exact (dropTracked_conforms rfl panicking).bind fun _ _ isQuiet => .inl isQuiet
  case h_11 => cases started

end Conformance

section Invariant

variable [DecidableEq Process] [Fintype Process] {wrapper : Wrapper} {thread : Process → Thread}

def acquisitions (resource : String) (trace : List ProbeEvent) (id : UInt64) : ℕ :=
  trace.count (.lockAcquired id resource)

def releases (resource : String) (trace : List ProbeEvent) (id : UInt64) : ℕ :=
  trace.count (.lockReleased id resource)

/-- One for a use that is shown under this thread id. -/
def shownAs (id : UInt64) (phase : Phase) : ℕ := if phase.shown = some id then 1 else 0

/-- The thread keeps the id that a use has read, and reads the same one again. -/
structure Placed (world : World Thread Process) (reader : Thread) (phase : Phase) : Prop where
  ids : ∀ id, phase.reads = some id → world.probeThreadId reader = some id
  again : ∀ id id', phase = .releasing id id' → id' = id

/-- What is shown is what the trace shows, the real lock is held by one use, and thread ids stay. -/
structure Invariant (wrapper : Wrapper) (thread : Process → Thread) (world : World Thread Process)
    (phases : Process → Phase) : Prop where
  ledger : ∀ id, acquisitions wrapper.resource world.trace id =
    releases wrapper.resource world.trace id + ∑ process, shownAs id (phases process)
  held : ∀ process, (phases process).holds = true ↔ world.holder = some process
  placed : ∀ process, Placed world (thread process) (phases process)

variable {world : World Thread Process} {phases : Process → Phase} {process : Process} {later : Phase}

/-- A move that changes what is shown as it changes the counts. -/
theorem Invariant.ledger_moved (holds : Invariant wrapper thread world phases) {trace : List ProbeEvent} (id : UInt64)
    {acquired released : ℕ}
    (counted : acquisitions wrapper.resource trace id = acquisitions wrapper.resource world.trace id + acquired)
    (uncounted : releases wrapper.resource trace id = releases wrapper.resource world.trace id + released)
    (balanced : acquired + shownAs id (phases process) = released + shownAs id later) :
    acquisitions wrapper.resource trace id = releases wrapper.resource trace id +
      ∑ other, shownAs id (Function.update phases process later other) := by
  have moved := total_update (shownAs id) phases process later
  have before := holds.ledger id
  omega

/-- A move that shows and hides nothing. -/
theorem Invariant.ledger_kept (holds : Invariant wrapper thread world phases)
    (same : later.shown = (phases process).shown) (id : UInt64) :
    acquisitions wrapper.resource world.trace id = releases wrapper.resource world.trace id +
      ∑ other, shownAs id (Function.update phases process later other) :=
  holds.ledger_moved id (Nat.add_zero _).symm (Nat.add_zero _).symm (by rw [shownAs, shownAs, same])

omit [Fintype Process] in
/-- A move of one process leaves the others where they are. -/
theorem placed_update {world' : World Thread Process} (others : ∀ other, Placed world' (thread other) (phases other))
    (moved : Placed world' (thread process) later) (other : Process) :
    Placed world' (thread other) (Function.update phases process later other) := by
  rcases eq_or_ne other process with rfl | different
  · rwa [Function.update_self]
  · rw [Function.update_of_ne different]
    exact others other

omit [DecidableEq Process] in
/-- While the real lock is free, nobody holds it. -/
theorem Invariant.unheld (holds : Invariant wrapper thread world phases) (free : world.holder = none)
    (other : Process) : (phases other).holds = false := by
  rw [← Bool.not_eq_true, holds.held other, free]
  nofun

omit [DecidableEq Process] in
/-- Nobody else holds the lock of its holder. -/
theorem Invariant.alone (holds : Invariant wrapper thread world phases) (isHeld : (phases process).holds = true)
    {other : Process} (different : other ≠ process) : (phases other).holds = false := by
  rw [← Bool.not_eq_true, holds.held other, (holds.held process).mp isHeld]
  intro same
  exact different (Option.some.inj same).symm

/-- The real lock is granted. -/
theorem Invariant.granted (holds : Invariant wrapper thread world phases) (free : world.holder = none)
    (granted : (phases process).grant = some later) :
    Invariant wrapper thread { world with holder := some process } (Function.update phases process later) := by
  have facts : later.shown = (phases process).shown ∧ later.holds = true ∧
      later.reads = (phases process).reads ∧ ∀ id id', later ≠ .releasing id id' := by
    cases current : phases process <;> rw [current] at granted <;> cases granted <;>
      exact ⟨rfl, rfl, rfl, nofun⟩
  obtain ⟨shown, nowHolds, reads, notReleasing⟩ := facts
  refine ⟨holds.ledger_kept shown, fun other => ?_, ?_⟩
  · rcases eq_or_ne other process with rfl | different
    · rw [Function.update_self, nowHolds]
      exact ⟨fun _ => rfl, fun _ => rfl⟩
    · rw [Function.update_of_ne different, holds.unheld free other]
      simp only [Bool.false_eq_true, Option.some.injEq, different.symm]
  · refine placed_update (fun other => ⟨(holds.placed other).ids,
      (holds.placed other).again⟩) ⟨fun id isRead => ?_, ?_⟩
    · exact (holds.placed process).ids id (reads ▸ isRead)
    · exact fun id id' isReleasing => absurd isReleasing (notReleasing id id')

/-- The real lock is given up. -/
theorem Invariant.unlocked (holds : Invariant wrapper thread world phases) {panicking poisoned : Bool}
    (unlocked : (phases process).unlock panicking = some later) :
    Invariant wrapper thread { world with holder := none, poisoned := poisoned }
      (Function.update phases process later) := by
  have facts : later.shown = (phases process).shown ∧ (phases process).holds = true ∧ later.holds = false ∧
      (∀ id, later.reads = some id → (phases process).reads = some id) ∧ ∀ id id', later ≠ .releasing id id' := by
    unfold Phase.unlock at unlocked
    split at unlocked
    · next current =>
      cases unlocked
      rw [current]
      exact ⟨rfl, rfl, rfl, nofun, nofun⟩
    · next current =>
      cases unlocked
      rw [current]
      exact ⟨rfl, rfl, rfl, fun _ isRead => isRead, nofun⟩
    · next current =>
      cases unlocked
      rw [current]
      exact ⟨rfl, rfl, rfl, fun _ isRead => isRead, nofun⟩
    · cases unlocked
  obtain ⟨shown, held, noLonger, reads, notReleasing⟩ := facts
  refine ⟨holds.ledger_kept shown, fun other => ?_, ?_⟩
  · rcases eq_or_ne other process with rfl | different
    · simp only [Function.update_self, noLonger, Bool.false_eq_true, reduceCtorEq]
    · simp only [Function.update_of_ne different, holds.alone held different, Bool.false_eq_true, reduceCtorEq]
  · refine placed_update (fun other => ⟨(holds.placed other).ids,
      (holds.placed other).again⟩) ⟨fun id isRead => ?_, ?_⟩
    · exact (holds.placed process).ids id (reads id isRead)
    · exact fun id id' isReleasing => absurd isReleasing (notReleasing id id')

/-- An event shows the acquisition of a use that was not shown, or hides one that was. -/
theorem say_cases {resource : String} {phase later : Phase} {event : ProbeEvent}
    (again : ∀ id id', phase = .releasing id id' → id' = id) (moved : phase.say resource event = some later) :
    (later.holds = phase.holds ∧ (∀ id, later.reads = some id → phase.reads = some id) ∧
      ∀ id id', later ≠ .releasing id id') ∧
    ∃ id, event = .lockAcquired id resource ∧ phase.shown = none ∧ later.shown = some id ∨
      event = .lockReleased id resource ∧ phase.shown = some id ∧ later.shown = none := by
  unfold Phase.say at moved
  split at moved
  case h_1 id id' resource' | h_2 id id' resource' =>
    split at moved
    · next same =>
      obtain ⟨rfl, rfl⟩ := same
      cases moved
      exact ⟨⟨rfl, fun _ isRead => isRead, nofun⟩, id', .inl ⟨rfl, rfl, rfl⟩⟩
    · cases moved
  case h_3 id id' resource' =>
    split at moved
    · next same =>
      obtain ⟨rfl, rfl⟩ := same
      cases moved
      exact ⟨⟨rfl, nofun, nofun⟩, id', .inr ⟨rfl, rfl, rfl⟩⟩
    · cases moved
  case h_4 id id' id'' resource' =>
    split at moved
    · next same =>
      obtain ⟨rfl, rfl⟩ := same
      obtain rfl := again _ _ rfl
      cases moved
      exact ⟨⟨rfl, nofun, nofun⟩, id'', .inr ⟨rfl, rfl, rfl⟩⟩
    · cases moved
  case h_5 => cases moved

theorem acquisitions_append (resource : String) (trace : List ProbeEvent) (id id' : UInt64) :
    acquisitions resource (trace ++ [.lockAcquired id resource]) id' =
      acquisitions resource trace id' + (if id = id' then 1 else 0) ∧
    releases resource (trace ++ [.lockAcquired id resource]) id' = releases resource trace id' + 0 := by
  simp [acquisitions, releases, List.count_append, List.count_singleton]

theorem releases_append (resource : String) (trace : List ProbeEvent) (id id' : UInt64) :
    acquisitions resource (trace ++ [.lockReleased id resource]) id' = acquisitions resource trace id' + 0 ∧
    releases resource (trace ++ [.lockReleased id resource]) id' =
      releases resource trace id' + (if id = id' then 1 else 0) := by
  simp [acquisitions, releases, List.count_append, List.count_singleton]

/-- An event of the lock is reported. -/
theorem Invariant.said (holds : Invariant wrapper thread world phases) {event : ProbeEvent}
    (moved : (phases process).say wrapper.resource event = some later) :
    Invariant wrapper thread { world with trace := world.trace ++ [event] } (Function.update phases process later) := by
  obtain ⟨⟨sameHolds, reads, notReleasing⟩, id, reported⟩ := say_cases (holds.placed process).again moved
  refine ⟨fun id' => ?_, fun other => ?_, ?_⟩
  · rcases reported with ⟨rfl, was, is⟩ | ⟨rfl, was, is⟩
    · obtain ⟨counted, uncounted⟩ := acquisitions_append wrapper.resource world.trace id id'
      refine holds.ledger_moved id' counted uncounted ?_
      simp only [shownAs, was, is, reduceCtorEq, if_false, Option.some.injEq, Nat.add_zero, Nat.zero_add]
    · obtain ⟨counted, uncounted⟩ := releases_append wrapper.resource world.trace id id'
      refine holds.ledger_moved id' counted uncounted ?_
      simp only [shownAs, was, is, reduceCtorEq, if_false, Option.some.injEq, Nat.add_zero, Nat.zero_add]
  · rw [update_agrees Phase.holds sameHolds]
    exact holds.held other
  · refine placed_update (fun other => ⟨(holds.placed other).ids,
      (holds.placed other).again⟩) ⟨fun id isRead => ?_, ?_⟩
    · exact (holds.placed process).ids id (reads id isRead)
    · exact fun id id' isReleasing => absurd isReleasing (notReleasing id id')

variable [DecidableEq Thread]

omit [DecidableEq Process] [Fintype Process] in
/-- Reading the thread id gives the one that the thread keeps, and takes away no id. -/
theorem currentThreadId_spec (world : World Thread Process) (reader : Thread) :
    (world.currentThreadId reader).2.holder = world.holder ∧
    (world.currentThreadId reader).2.trace = world.trace ∧
    (world.currentThreadId reader).2.probeThreadId reader = some (world.currentThreadId reader).1 ∧
    ∀ other id, world.probeThreadId other = some id →
      (world.currentThreadId reader).2.probeThreadId other = some id := by
  unfold World.currentThreadId
  split
  · next id isRead => exact ⟨rfl, rfl, isRead, fun _ _ same => same⟩
  · next unread =>
    refine ⟨rfl, rfl, Function.update_self .., fun other id isRead => ?_⟩
    have different : other ≠ reader := by
      rintro rfl
      rw [unread] at isRead
      cases isRead
    rw [← isRead]
    exact Function.update_of_ne different ..

/-- A thread id is read. -/
theorem Invariant.read (holds : Invariant wrapper thread world phases)
    (moved : (phases process).read (world.currentThreadId (thread process)).1 = some later) :
    Invariant wrapper thread (world.currentThreadId (thread process)).2 (Function.update phases process later) := by
  obtain ⟨holder, trace, stored, keeps⟩ := currentThreadId_spec world (thread process)
  have facts : later.shown = (phases process).shown ∧ later.holds = (phases process).holds ∧
      Placed (world.currentThreadId (thread process)).2 (thread process) later := by
    cases current : phases process <;> rw [current] at moved
    case quiet =>
      cases moved
      exact ⟨rfl, rfl, fun id isRead => stored.trans isRead, nofun⟩
    case got id =>
      cases id <;> cases moved
      exact ⟨rfl, rfl, fun id isRead => stored.trans isRead, nofun⟩
    case holding id =>
      cases moved
      have kept := keeps _ _ ((holds.placed process).ids id (by rw [current]; rfl))
      refine ⟨rfl, rfl, fun id' isRead => kept.trans isRead, fun id' id'' same => ?_⟩
      cases same
      exact Option.some.inj (stored.symm.trans kept)
    all_goals cases moved
  obtain ⟨shown, sameHolds, placed⟩ := facts
  refine ⟨fun id => ?_, fun other => ?_, placed_update (fun other => ⟨fun id isRead => ?_, ?_⟩) placed⟩
  · rw [trace]
    exact holds.ledger_kept shown id
  · rw [holder, update_agrees Phase.holds sameHolds]
    exact holds.held other
  · exact keeps _ _ ((holds.placed other).ids id isRead)
  · exact (holds.placed other).again

/-- Every effect keeps the invariant. -/
theorem locking_keeps (wrapper : Wrapper) (thread : Process → Thread) :
    (lockingSystem wrapper thread).Keeps (protocol wrapper) (Invariant wrapper thread) := by
  intro world phases process effect choice reply next holds answered
  have unnoticed : Invariant wrapper thread world (Function.update phases process (phases process)) := by
    rwa [Function.update_eq_self]
  cases effect with
  | currentThreadId =>
    obtain ⟨rfl, rfl⟩ := Prod.mk.inj (Option.some.inj answered)
    exact ⟨trivial, fun later _ moved => holds.read moved⟩
  | lockHook | spawnHook =>
    cases answered
    refine ⟨rfl, fun later _ moved => ?_⟩
    cases moved
    exact unnoticed
  | dropLock =>
    cases answered
    refine ⟨trivial, fun later _ moved => ?_⟩
    cases moved
    exact unnoticed
  | lock =>
    simp only [lockingSystem, World.answer] at answered
    split at answered
    · next free =>
      cases answered
      exact ⟨trivial, fun later _ moved => holds.granted (Option.isNone_iff_eq_none.mp free) moved⟩
    · cases answered
  | tryLock | pollLock =>
    simp only [lockingSystem, World.answer] at answered
    split at answered
    · split at answered
      · next free =>
        cases answered
        exact ⟨trivial, fun later _ moved => holds.granted (Option.isNone_iff_eq_none.mp free) moved⟩
      · cases answered
    · cases answered
      refine ⟨trivial, fun later _ moved => ?_⟩
      cases moved
      exact unnoticed
  | unlock panicking =>
    cases answered
    exact ⟨trivial, fun later _ moved => holds.unlocked moved⟩
  | emit event =>
    cases answered
    exact ⟨trivial, fun later _ moved => holds.said moved⟩
  | panic message => cases answered

end Invariant

section Runs

variable [DecidableEq Thread] [DecidableEq Process] {wrapper : Wrapper} {thread : Process → Thread}

abbrev Config (Thread Process : Type) := System.Config Effect Effect.Reply Process Use (World Thread Process)

/-- Nothing is reported or locked yet. Threads may have ids of their own. -/
structure Start (world : World Thread Process) : Prop where
  silent : world.trace = []
  free : world.holder = none

def Reaches (wrapper : Wrapper) (thread : Process → Thread) (world : World Thread Process)
    (final : Config Thread Process) : Prop :=
  ∃ actions, run? (lockingSystem wrapper thread).step ⟨world, fun _ => .done .idle⟩ actions = some final

/-- The trace shows that this thread acquired the lock and has not released it. -/
def Unmatched (resource : String) (trace : List ProbeEvent) (id : UInt64) : Prop :=
  releases resource trace id < acquisitions resource trace id

instance (resource : String) (trace : List ProbeEvent) (id : UInt64) : Decidable (Unmatched resource trace id) :=
  inferInstanceAs (Decidable (_ < _))

/-- At most one thread is shown to hold the lock. -/
def AtMostOne (resource : String) (trace : List ProbeEvent) : Prop :=
  ∀ id id', Unmatched resource trace id → Unmatched resource trace id' → id = id'

/-- The use stands in `ModelMutex::lock`, with its report made and its attempt still to come. -/
def WaitsInLock (config : Config Thread Process) (process : Process) : Prop :=
  ∃ effect next, config.program process = .call effect next ∧ (effect = .spawnHook ∨ effect = .lock)

/-- The use ended with a guard that was dropped while its thread panicked. -/
def DroppedPanicking (config : Config Thread Process) (process : Process) : Prop :=
  config.program process = .done (.dropped true)

/-- A `ModelMutex` shows a thread that waits in `lock`, or whose guard was dropped in a panic. -/
def Excused (wrapper : Wrapper) (thread : Process → Thread) (config : Config Thread Process) (id : UInt64) : Prop :=
  (∃ resource, wrapper = .modelMutex resource) ∧
    ∃ process, config.shared.probeThreadId (thread process) = some id ∧
      (WaitsInLock config process ∨ DroppedPanicking config process)

variable {world : World Thread Process} {final : Config Thread Process}

theorem invariant_of_run [Fintype Process] (start : Start world) (reached : Reaches wrapper thread world final) :
    ∃ phases : Process → Phase, System.Phased (protocol wrapper) (fun later use => later.Rest wrapper use)
      (Invariant wrapper thread) final phases := by
  obtain ⟨actions, reached⟩ := reached
  have initially : Invariant wrapper thread world fun _ => .quiet := by
    refine ⟨fun id => ?_, fun process => ?_, fun process => ⟨nofun, nofun⟩⟩
    · simp [start.silent, acquisitions, releases, shownAs, Phase.shown]
    · rw [start.free]
      exact ⟨nofun, nofun⟩
  have idle : System.Phased (protocol wrapper) (fun later use => later.Rest wrapper use) (Invariant wrapper thread)
      (⟨world, fun _ => .done .idle⟩ : Config Thread Process) fun _ => .quiet :=
    ⟨initially, fun _ => rfl⟩
  exact System.phases_of_run (fun _ _ _ _ _ started rest => start_conforms started rest)
    (locking_keeps wrapper thread) idle reached

/-- Between two operations, a use that is shown holds the real lock or ended in a panic. -/
theorem shown_at_rest {phase : Phase} {use : Use} {id : UInt64} (isShown : phase.shown = some id)
    (rest : phase.Rest wrapper use) :
    phase.holds = true ∨ (∃ resource, wrapper = .modelMutex resource) ∧ use = .dropped true := by
  cases use with
  | idle =>
    obtain rfl : phase = .quiet := rest
    cases isShown
  | failed =>
    rw [rest.2] at isShown
    cases isShown
  | future threadId =>
    cases threadId <;> cases rest <;> cases isShown
  | held guard =>
    cases guard with
    | model poisoned =>
      obtain ⟨id, rfl⟩ := rest
      exact .inl rfl
    | tracked id =>
      obtain rfl : phase = .holding id := rest
      exact .inl rfl
  | dropped panicking =>
    rcases rest with rfl | ⟨rfl, isModel, -⟩
    · cases isShown
    · exact .inr ⟨isModel, rfl⟩

omit [DecidableEq Thread] [DecidableEq Process] in
/-- A use that is shown holds the real lock, waits in `ModelMutex::lock`, or ended in a panic. -/
theorem shown_cases {phase : Phase} {process : Process} {id : UInt64} (isShown : phase.shown = some id)
    (conforms : (final.program process).Conforms (protocol wrapper) (fun later use => later.Rest wrapper use) phase) :
    phase.holds = true ∨ (∃ resource, wrapper = .modelMutex resource) ∧
      (WaitsInLock final process ∨ DroppedPanicking final process) := by
  cases running : final.program process with
  | done use =>
    rw [running] at conforms
    rcases shown_at_rest isShown conforms with isHeld | ⟨isModel, rfl⟩
    · exact .inl isHeld
    · exact .inr ⟨isModel, .inr running⟩
  | call effect next =>
    rw [running] at conforms
    have permitted := conforms.1
    cases phase with
    | quiet | known | got | returned => cases isShown
    | holding | releasing => exact .inl rfl
    | announced => exact .inr ⟨permitted.1, .inl ⟨effect, next, running, permitted.2⟩⟩
    | abandoned => exact permitted.elim

omit [DecidableEq Process] [DecidableEq Thread] in
/-- Whoever the trace shows is excused or holds the real lock. -/
theorem unmatched_cases [Fintype Process] {phases : Process → Phase} {id : UInt64}
    (phased : System.Phased (protocol wrapper) (fun later use => later.Rest wrapper use)
      (Invariant wrapper thread) final phases) (unmatched : Unmatched wrapper.resource final.shared.trace id) :
    Excused wrapper thread final id ∨
      ∃ process, final.shared.holder = some process ∧ (phases process).shown = some id := by
  obtain ⟨invariant, conform⟩ := phased
  have ledger := invariant.ledger id
  have positive : ∑ process, shownAs id (phases process) ≠ 0 := by
    unfold Unmatched at unmatched
    omega
  obtain ⟨process, -, isShown⟩ := Finset.exists_ne_zero_of_sum_ne_zero positive
  have shown : (phases process).shown = some id := by
    by_contra notShown
    exact isShown (if_neg notShown)
  have named : final.shared.probeThreadId (thread process) = some id := by
    refine (invariant.placed process).ids id ?_
    cases current : phases process <;> rw [current] at shown <;> first | exact shown | cases shown
  rcases shown_cases shown (conform process) with isHeld | ⟨isModel, excuse⟩
  · exact .inr ⟨process, (invariant.held process).mp isHeld, shown⟩
  · exact .inl ⟨isModel, process, named, excuse⟩

/-- In every reachable state at most one thread is shown to hold the lock, except those that are excused. -/
theorem overlap_excused [Fintype Process] (start : Start world) (reached : Reaches wrapper thread world final)
    {id id' : UInt64} (unmatched : Unmatched wrapper.resource final.shared.trace id)
    (unmatched' : Unmatched wrapper.resource final.shared.trace id') :
    id = id' ∨ Excused wrapper thread final id ∨ Excused wrapper thread final id' := by
  obtain ⟨phases, phased⟩ := invariant_of_run start reached
  rcases unmatched_cases phased unmatched with excused | ⟨process, holder, shown⟩
  · exact .inr (.inl excused)
  rcases unmatched_cases phased unmatched' with excused | ⟨process', holder', shown'⟩
  · exact .inr (.inr excused)
  obtain rfl := Option.some.inj (holder.symm.trans holder')
  exact .inl (Option.some.inj (shown.symm.trans shown'))

/-- Every prefix of the trace was the whole trace at some point of the run. -/
theorem prefix_reached (silent : world.trace = []) (reached : Reaches wrapper thread world final)
    {part : List ProbeEvent} (isPart : part <+: final.shared.trace) :
    ∃ config, Reaches wrapper thread world config ∧ config.shared.trace = part := by
  obtain ⟨actions, reached⟩ := reached
  have grows : ∀ config action next, (lockingSystem wrapper thread).step config action = some next →
      next.shared.trace = config.shared.trace ∨ ∃ event, next.shared.trace = config.shared.trace ++ [event] := by
    intro config action next stepped
    obtain ⟨_, _, _, _, -, -, -, rfl⟩ | ⟨process, choice, effect, _, reply, shared, -, -, answered, rfl⟩ :=
      System.step_cases stepped
    · exact .inl rfl
    · cases effect with
      | emit event =>
        cases answered
        exact .inr ⟨event, rfl⟩
      | currentThreadId =>
        obtain ⟨rfl, rfl⟩ := Prod.mk.inj (Option.some.inj answered)
        exact .inl (currentThreadId_spec config.shared (thread process)).2.1
      | lockHook | spawnHook | dropLock | unlock =>
        cases answered
        exact .inl rfl
      | panic => cases answered
      | lock | tryLock | pollLock =>
        simp only [lockingSystem, World.answer] at answered
        repeat' split at answered
        all_goals cases answered
        all_goals exact .inl rfl
  obtain ⟨past, config, before, same⟩ := run?_record (fun config => config.shared.trace) grows silent reached isPart
  exact ⟨config, ⟨past, before⟩, same⟩

/-- **Overlap of captured exclusive locks.** Under every interleaving, a trace of `TrackedStdMutex` or
`TrackedMutex` shows at most one holder at any time; one of `ModelMutex` shows besides only threads
that wait in `lock` and threads whose guard was dropped while they panicked. -/
theorem captured_locks_overlap [Fintype Process] (start : Start world)
    (reached : Reaches wrapper thread world final) :
    (∀ id id', Unmatched wrapper.resource final.shared.trace id → Unmatched wrapper.resource final.shared.trace id' →
      id = id' ∨ Excused wrapper thread final id ∨ Excused wrapper thread final id') ∧
    ((∀ resource, wrapper ≠ .modelMutex resource) →
      ∀ part, part <+: final.shared.trace → AtMostOne wrapper.resource part) := by
  refine ⟨fun id id' => overlap_excused start reached, fun notModel part isPart id id' unmatched unmatched' => ?_⟩
  obtain ⟨config, before, rfl⟩ := prefix_reached start.silent reached isPart
  rcases overlap_excused start before unmatched unmatched' with same | ⟨⟨resource, isModel⟩,
      -⟩ | ⟨⟨resource, isModel⟩, -⟩
  · exact same
  · exact absurd isModel (notModel resource)
  · exact absurd isModel (notModel resource)

/-- One thread holds the mutex while another one calls `lock`. -/
def waitingRun : List (System.Action Bool Operation Bool) :=
  List.flatten [[.start false .lock], List.replicate 5 (.advance false true), [.start true .lock],
    List.replicate 3 (.advance true true)]

/-- Thread `false` has the id 1, thread `true` the id 2. -/
def twoThreads : World Bool Bool :=
  { probeThreadId := fun thread => some (if thread then 2 else 1), nextImplicitThreadId := 3 }

/-- Two threads are shown to hold one `ModelMutex`. -/
theorem model_mutex_overlaps :
    ¬ ∀ (final : Config Bool Bool) part, Reaches (.modelMutex 7) id twoThreads final →
      part <+: final.shared.trace → AtMostOne "model_mutex:7" part := by
  intro never
  have reached : Reaches (.modelMutex 7) id twoThreads _ := ⟨waitingRun, rfl⟩
  have both := never _ [.lockAcquired 1 "model_mutex:7", .lockAcquired 2 "model_mutex:7"] reached ⟨[], rfl⟩ 1 2
  exact absurd (both (by decide) (by decide)) (by decide)

/-- The second thread takes the tracked mutex after the first has dropped its guard. -/
def trackedRun : List (System.Action Bool Operation Bool) :=
  List.flatten [[.start false .lock], List.replicate 3 (.advance false true),
    [.start true .lock, .advance true true, .start false (.drop false)], List.replicate 2 (.advance false true),
    List.replicate 2 (.advance true true)]

theorem captured_locks_overlap_tracked :
    ∃ final, Reaches (.trackedStdMutex "counter") id twoThreads final ∧
      final.shared.trace = [.lockAcquired 1 "counter", .lockReleased 1 "counter", .lockAcquired 2 "counter"] ∧
      AtMostOne "counter" final.shared.trace := by
  have reached : Reaches (.trackedStdMutex "counter") id twoThreads _ := ⟨trackedRun, rfl⟩
  have overlap := captured_locks_overlap ⟨rfl, rfl⟩ reached
  exact ⟨_, reached, rfl, overlap.2 nofun _ (List.prefix_refl _)⟩

end Runs

end Laplace.Soundness.Overlap
