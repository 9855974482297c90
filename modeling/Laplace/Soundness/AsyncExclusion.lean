import Laplace.Model.LockRuns
import Laplace.Soundness.RuntimeRuns

/-! # Mutual exclusion in the trace of an async lock

Reporting and locking are separate steps, so the trace could show two holders where the lock has one.
It does not: an acquisition is reported after tokio granted it, and a release before tokio gets its
guard back. `LockPhase` is the protocol of one acquisition, to which every method conforms; the
invariant over all acquisitions is that whoever is reported to hold the lock does hold it.
-/

namespace Laplace.Soundness

open Laplace.Machine Laplace.Model Laplace.Model.Runtime

variable {Value Process : Type}

/-- How far an acquisition has come. -/
inductive LockProgress where
  | waiting
  /-- Tokio granted it, nothing is reported. -/
  | granted
  | acquired
  /-- The release is reported, tokio's guard is still out. -/
  | released
  | returned
  /-- A guard that was never reported, dropped while unwinding. -/
  | withdrawn
  | dropped
deriving DecidableEq

structure LockPhase where
  resource : Option UInt64 := none
  waiter : Option UInt64 := none
  mode : Option LockMode := none
  requested : Bool := false
  progress : LockProgress := .waiting
deriving DecidableEq

namespace LockPhase

/-- Nothing was reported yet. -/
def quiet (phase : LockPhase) : Bool :=
  !phase.requested && (phase.progress = .waiting || phase.progress = .granted)

/-- The mode in which the acquisition holds tokio's lock. -/
def holds (phase : LockPhase) : Option LockMode :=
  match phase.progress with
  | .granted | .acquired | .released => phase.mode
  | .waiting | .returned | .withdrawn | .dropped => none

/-- What the acquisition has reported. -/
def said (phase : LockPhase) : List Event :=
  match phase.resource, phase.waiter, phase.mode with
  | some resource, some waiter, some mode =>
      (if phase.requested then [.requested resource waiter mode.kind] else []) ++
        match phase.progress with
        | .waiting | .granted | .withdrawn => []
        | .acquired => [.acquired resource waiter mode.kind]
        | .released | .returned => [.acquired resource waiter mode.kind, .released resource waiter mode.kind]
        | .dropped => [.waiterDropped resource waiter]
  | _, _, _ => []

/-- The future is made for a mode. -/
def want (phase : LockPhase) (mode : LockMode) : Option LockPhase :=
  if phase.quiet && phase.progress = .waiting && phase.mode = none then
    some { phase with mode := some mode }
  else none

/-- Tokio answers the poll of a future. -/
def answered (phase : LockPhase) (mode : LockMode) : Poll Handle → Option LockPhase
  | .pending => some phase
  | .ready _ =>
      if phase.progress = .waiting && phase.mode = some mode then some { phase with progress := .granted }
      else none

/-- Tokio answers an attempt, which comes before everything else. -/
def attempted (phase : LockPhase) (mode : LockMode) : Except Unit Handle → Option LockPhase
  | .error _ => some phase
  | .ok _ => if phase = {} then some { phase with mode := some mode, progress := .granted } else none

/-- The resource id becomes known. -/
def identify (phase : LockPhase) (id : UInt64) : Option LockPhase :=
  if phase.waiter = none && phase.resource = none then some { phase with resource := some id } else none

def draw (phase : LockPhase) (waiter : UInt64) : Option LockPhase :=
  if phase.waiter = none && phase.quiet then some { phase with waiter := some waiter } else none

/-- Tokio's guard is dropped: after its release was reported, or without any report. -/
def giveBack (phase : LockPhase) : Option LockPhase :=
  match phase.progress with
  | .granted => some { phase with progress := .withdrawn }
  | .released => some { phase with progress := .returned }
  | _ => none

/-- The event speaks for this acquisition. -/
def speaks (phase : LockPhase) (resource waiter : UInt64) : Bool :=
  phase.resource = some resource && phase.waiter = some waiter

def say (phase : LockPhase) : Event → Option LockPhase
  | .requested resource waiter kind =>
      if phase.speaks resource waiter && phase.mode.map LockMode.kind = some kind && !phase.requested &&
          phase.progress = .waiting then some { phase with requested := true } else none
  | .acquired resource waiter kind =>
      if phase.speaks resource waiter && phase.mode.map LockMode.kind = some kind &&
          phase.progress = .granted then some { phase with progress := .acquired } else none
  | .released resource waiter kind =>
      if phase.speaks resource waiter && phase.mode.map LockMode.kind = some kind &&
          phase.progress = .acquired then some { phase with progress := .released } else none
  | .waiterDropped resource waiter =>
      if phase.speaks resource waiter && phase.mode.isSome && phase.requested &&
          phase.progress = .waiting then some { phase with progress := .dropped } else none
  | _ => none

/-- The protocol of an acquisition of the lock whose id stands in `cell`. -/
def after (cell : Handle) (phase : LockPhase) : (effect : Effect Value) → effect.Reply → Option LockPhase
  | .tokio (.lock _), _ => phase.want .lock
  | .tokio (.read _), _ => phase.want .read
  | .tokio (.write _), _ => phase.want .write
  | .tokio (.poll .lock _), answer => phase.answered .lock answer
  | .tokio (.poll .read _), answer => phase.answered .read answer
  | .tokio (.poll .write _), answer => phase.answered .write answer
  | .tokio (.tryLock _), result => phase.attempted .lock result
  | .tokio (.tryRead _), result => phase.attempted .read result
  | .tokio (.tryWrite _), result => phase.attempted .write result
  | .tokio (.dropGuard _ _), _ => phase.giveBack
  | .tokio (.dropFuture _ _), _ => some phase
  | .load atomic, current =>
      if atomic = cell then if current = 0 then some phase else phase.identify current else none
  | .compareExchange atomic expected new, .ok _ =>
      if atomic = cell ∧ expected = 0 ∧ new ≠ 0 then phase.identify new else none
  | .compareExchange atomic expected _, .error existing =>
      if atomic = cell ∧ expected = 0 then phase.identify existing else none
  | .nextResource, _ => some phase
  | .nextWaiter, some waiter => phase.draw waiter
  | .nextWaiter, none => some phase
  | .hook _, _ => some phase
  | .report event, _ => phase.say event
  | _, _ => none

/-- The phase of a future between two polls. -/
def waitingFor (mode : LockMode) (future : Awaiting) : LockPhase :=
  ⟨some future.resource, some future.waiter, some mode, future.requestedEmitted, .waiting⟩

/-- The phase while a guard is out. -/
def Guards (mode : LockMode) (phase : LockPhase) (guard : Guard) : Prop :=
  phase.resource = some guard.resource ∧ phase.waiter = some guard.waiter ∧ phase.mode = some mode ∧
    phase.progress = .acquired

/-- The phase that suits an acquisition between two operations. -/
def Rest (phase : LockPhase) : Option Acquisition → Prop
  | none => phase = {}
  | some acquisition =>
      (∀ future, acquisition.future = some future → future.resolved = false →
        acquisition.guard = none ∧ phase = waitingFor acquisition.mode future) ∧
      ∀ guard, acquisition.guard = some guard → Guards acquisition.mode phase guard

end LockPhase

open LockPhase

/-- The protocol of the lock's acquisitions while a hook is installed. -/
def lockProtocol (cell : Handle) : Protocol (Effect Value) Effect.Reply LockPhase where
  possible := hookedReply
  after := LockPhase.after cell

section Conformance

variable (self : Primitive) {α : Type}

/-- A program of the runtime keeps to the protocol of the lock's acquisitions. -/
abbrev LockConforms (rest : LockPhase → α → Prop) (phase : LockPhase) (program : RuntimeM Value α) : Prop :=
  program.Conforms (lockProtocol self.resource) rest phase

variable {self}

/-- A panic ends the program. -/
theorem panic_conforms {rest : LockPhase → α → Prop} {phase : LockPhase} {message : String} :
    LockConforms self rest phase (panic message : RuntimeM Value α) := ⟨trivial, nofun⟩

/-- Reporting through the hook, which is installed. -/
theorem announceLock_conforms {phase later : LockPhase} {event : Event} (spoken : phase.say event = some later) :
    LockConforms self (fun reached _ => reached = later) phase (announceLock event : RuntimeM Value Unit) := by
  refine Program.conforms_perform_bind.mpr ⟨trivial, fun installed isInstalled => ⟨phase, rfl, ?_⟩⟩
  obtain rfl : installed = true := isInstalled
  exact Program.conforms_perform.mpr ⟨trivial, fun _ _ => ⟨later, spoken, rfl⟩⟩

/-- `get` makes the resource id known. -/
theorem get_conforms {phase : LockPhase} (unknown : phase.resource = none) (unnamed : phase.waiter = none)
    {unwind : RuntimeM Value Unit} (unwinds : LockConforms self (fun _ _ => True) phase unwind) :
    LockConforms self (fun later id => later = { phase with resource := some id }) phase
      (self.resource.get unwind) := by
  have identifies : ∀ id, phase.identify id = some { phase with resource := some id } := by
    intro id
    simp only [identify, unknown, unnamed, decide_true, Bool.and_self, if_true]
  refine Program.conforms_perform_bind.mpr ⟨trivial, fun current _ => ?_⟩
  by_cases zero : current = 0
  · refine ⟨phase, by simp only [lockProtocol, after, if_true, zero], ?_⟩
    simp only [zero, ne_eq, not_true_eq_false, if_false]
    have allocates : LockConforms self (fun later id => later = phase ∧ id ≠ 0) phase
        (nextAsyncLockResourceId unwind) := by
      refine Program.conforms_perform_bind.mpr ⟨trivial, fun allocated isPositive => ⟨phase, rfl, ?_⟩⟩
      cases allocated with
      | none => exact unwinds.bind fun _ _ _ => panic_conforms
      | some id => exact ⟨rfl, fun isZero => isPositive (congrArg some isZero)⟩
    refine allocates.bind ?_
    rintro _ id ⟨rfl, positive⟩
    refine Program.conforms_perform_bind.mpr ⟨trivial, fun result _ => ?_⟩
    cases result with
    | ok _ =>
      refine ⟨_, ?_, rfl⟩
      simp only [lockProtocol, after, positive, ne_eq, not_false_eq_true, and_self, if_true, identifies]
    | error existing =>
      refine ⟨_, ?_, rfl⟩
      simp only [lockProtocol, after, and_self, if_true, identifies]
  · refine ⟨{ phase with resource := some current }, ?_, ?_⟩
    · simp only [lockProtocol, after, if_true, zero, if_false, identifies]
    · simp only [ne_eq, zero, not_false_eq_true, if_true]
      rfl

/-- An id is drawn before anything is reported. -/
theorem draw_conforms {phase : LockPhase} (unnamed : phase.waiter = none) (quiet : phase.quiet = true)
    {unwind : RuntimeM Value Unit} (unwinds : LockConforms self (fun _ _ => True) phase unwind) :
    LockConforms self (fun later id => later = { phase with waiter := some id }) phase
      (nextAsyncLockWaiterId unwind) := by
  refine Program.conforms_perform_bind.mpr ⟨trivial, fun drawn _ => ?_⟩
  cases drawn with
  | none => exact ⟨phase, rfl, unwinds.bind fun _ _ _ => panic_conforms⟩
  | some id =>
    exact ⟨{ phase with waiter := some id }, by
      simp only [lockProtocol, after, LockPhase.draw, unnamed, quiet, decide_true, Bool.and_self, if_true], rfl⟩

/-- Nothing to drop while unwinding. -/
theorem pure_unwinds {phase : LockPhase} :
    LockConforms self (fun _ _ => True) phase (pure () : RuntimeM Value Unit) := trivial

theorem started_conforms {mode : LockMode} {inner : RuntimeM Value Handle}
    (makes : ∀ phase later, phase.want mode = some later →
      LockConforms self (fun reached _ => reached = later) phase inner) :
    LockConforms self (fun later future => future.resolved = false ∧ later = waitingFor mode future) {} (self.resource.get (pure ()) >>= fun resource =>
      Awaiting.start resource inner) := by
  refine (get_conforms rfl rfl pure_unwinds).bind ?_
  rintro _ resource rfl
  refine (draw_conforms rfl rfl pure_unwinds).bind ?_
  rintro _ waiter rfl
  refine (makes _ _ rfl).bind ?_
  rintro _ handle rfl
  exact ⟨rfl, rfl⟩

/-- A future that was just made waits in silence. -/
theorem start_conforms (mode : LockMode) :
    LockConforms self (fun later future => future.resolved = false ∧ later = waitingFor mode future) {}
      (mode.start self : RuntimeM Value Awaiting) := by
  cases mode with
  | lock => exact started_conforms fun phase later wanted => ⟨trivial, fun _ _ => ⟨later, wanted, rfl⟩⟩
  | read => exact started_conforms fun phase later wanted => ⟨trivial, fun _ _ => ⟨later, wanted, rfl⟩⟩
  | write => exact started_conforms fun phase later wanted => ⟨trivial, fun _ _ => ⟨later, wanted, rfl⟩⟩

theorem tryGuard_conforms {mode : LockMode} {attempt : RuntimeM Value (Except Unit Handle)}
    (tries : LockConforms self (fun later result => attempted {} mode result = some later) {} attempt) :
    LockConforms self (fun later result => ∀ guard, result = .ok guard → Guards mode later guard) {}
      (tryGuard self.resource mode.kind (fun _ => announceLock) attempt) := by
  refine tries.bind ?_
  intro later result moved
  cases result with
  | error err => exact fun guard isOk => nomatch isOk
  | ok inner =>
    obtain rfl := Option.some.inj moved
    -- Unwinding gives back a guard that nothing was reported about.
    have unwinds : ∀ resource, LockConforms self (fun _ _ => True)
        { resource, mode := some mode, progress := .granted }
        (tokio (.dropGuard mode.kind inner) : RuntimeM Value Unit) := fun _ => ⟨trivial, fun _ _ => ⟨_, rfl, trivial⟩⟩
    refine (get_conforms rfl rfl (unwinds none)).bind ?_
    rintro _ resource rfl
    refine (draw_conforms rfl rfl (unwinds (some resource))).bind ?_
    rintro _ waiter rfl
    have spoken : say ⟨some resource, some waiter, some mode, false, .granted⟩
        (.acquired resource waiter mode.kind) =
          some ⟨some resource, some waiter, some mode, false, .acquired⟩ := by
      simp [say, speaks]
    refine (announceLock_conforms spoken).bind ?_
    rintro _ _ rfl guard isOk
    obtain rfl := Except.ok.inj isOk
    exact ⟨rfl, rfl, rfl, rfl⟩

/-- An attempt that succeeds is reported after tokio granted it. -/
theorem attempt_conforms (mode : LockMode) :
    LockConforms self (fun later result => ∀ guard, result = .ok guard → Guards mode later guard) {}
      (mode.attempt self : RuntimeM Value (Except Unit Guard)) := by
  cases mode with
  | lock => exact tryGuard_conforms ⟨trivial, fun result _ => by cases result <;> exact ⟨_, rfl, rfl⟩⟩
  | read => exact tryGuard_conforms ⟨trivial, fun result _ => by cases result <;> exact ⟨_, rfl, rfl⟩⟩
  | write => exact tryGuard_conforms ⟨trivial, fun result _ => by cases result <;> exact ⟨_, rfl, rfl⟩⟩

theorem awaitingPoll_conforms {mode : LockMode} {future : Awaiting} {inner : RuntimeM Value (Poll Handle)}
    (polls : LockConforms self (fun later answer => answered (waitingFor mode future) mode answer = some later)
      (waitingFor mode future) inner) :
    LockConforms self (fun later result => Rest later (some (Acquisition.polled mode result)))
      (waitingFor mode future)
      (do
        let (answer, future) ← future.poll inner announceLock
          (.requested future.resource future.waiter mode.kind)
          fun _ => some (.acquired future.resource future.waiter mode.kind)
        return (answer.map future.guard, future)) := by
  simp only [Awaiting.poll, Program.bind_bind]
  refine polls.bind ?_
  intro later answer moved
  cases answer with
  | pending =>
    obtain rfl := Option.some.inj moved
    cases emitted : future.requestedEmitted with
    | true =>
      refine ⟨fun other isFuture _ => ⟨rfl, ?_⟩, nofun⟩
      obtain rfl := Option.some.inj isFuture
      rfl
    | false =>
      have spoken : (waitingFor mode future).say (.requested future.resource future.waiter mode.kind) =
          some (waitingFor mode { future with requestedEmitted := true }) := by
        simp [say, speaks, waitingFor, emitted]
      simp only [Bool.false_eq_true, if_false, Program.bind_bind]
      refine (announceLock_conforms spoken).bind ?_
      rintro _ _ rfl
      refine ⟨fun other isFuture _ => ⟨rfl, ?_⟩, nofun⟩
      obtain rfl := Option.some.inj isFuture
      rfl
  | ready handle =>
    have granted : later = { waitingFor mode future with progress := .granted } := by
      simpa [answered, waitingFor, eq_comm] using moved
    subst granted
    have spoken : say { waitingFor mode future with progress := .granted }
        (.acquired future.resource future.waiter mode.kind) =
          some { waitingFor mode future with progress := .acquired } := by
      simp [say, speaks, waitingFor]
    simp only [Program.bind_bind]
    refine (announceLock_conforms spoken).bind ?_
    rintro _ _ rfl
    refine ⟨fun other isFuture unresolved' => ?_, fun guard isGuard => ?_⟩
    · obtain rfl := Option.some.inj isFuture
      cases unresolved'
    · obtain rfl := Option.some.inj isGuard
      exact ⟨rfl, rfl, rfl, rfl⟩

/-- A poll reports the wait once, or the acquisition after tokio granted it. -/
theorem poll_conforms (mode : LockMode) (future : Awaiting) :
    LockConforms self (fun later result => Rest later (some (Acquisition.polled mode result)))
      (waitingFor mode future) (mode.poll future : RuntimeM Value (Poll Guard × Awaiting)) := by
  cases mode with
  | lock => exact awaitingPoll_conforms ⟨trivial, fun answer _ => by cases answer <;> exact ⟨_, rfl, rfl⟩⟩
  | read => exact awaitingPoll_conforms ⟨trivial, fun answer _ => by cases answer <;> exact ⟨_, rfl, rfl⟩⟩
  | write => exact awaitingPoll_conforms ⟨trivial, fun answer _ => by cases answer <;> exact ⟨_, rfl, rfl⟩⟩

/-- A future is dropped before it was ready: the wait that was reported ends. -/
theorem dropFuture_conforms (mode : LockMode) {future : Awaiting} (unresolved : future.resolved = false) :
    LockConforms self (fun _ _ => True) (waitingFor mode future) (mode.dropFuture future : RuntimeM Value Unit) := by
  have dropped : ∀ kind : Awaitable, LockConforms self (fun _ _ => True) (waitingFor mode future)
      (future.drop kind .lock (.waiterDropped future.resource future.waiter) : RuntimeM Value Unit) := by
    intro kind
    have drops : ∀ phase, LockConforms self (fun _ _ => True) phase
        (tokio (.dropFuture kind future.inner) : RuntimeM Value Unit) := fun phase =>
          ⟨trivial, fun _ _ => ⟨phase, rfl, trivial⟩⟩
    cases emitted : future.requestedEmitted with
    | false => simpa only [Awaiting.drop, emitted, Bool.false_and, Bool.false_eq_true, if_false] using drops _
    | true =>
      have spoken : (waitingFor mode future).say (.waiterDropped future.resource future.waiter) =
          some { waitingFor mode future with progress := .dropped } := by
        simp [say, speaks, waitingFor, emitted]
      simp only [Awaiting.drop, emitted, unresolved, Bool.not_false, Bool.and_self, if_true]
      exact (announceLock_conforms spoken).bind fun later _ _ => drops later
  cases mode with
  | lock => exact dropped .lock
  | read => exact dropped .read
  | write => exact dropped .write

/-- The husk of a future that was ready is dropped in silence. -/
theorem dropHusk_conforms (mode : LockMode) {future : Awaiting} (resolved : future.resolved = true)
    (phase : LockPhase) :
    LockConforms self (fun later _ => later = phase) phase (mode.dropFuture future : RuntimeM Value Unit) := by
  have dropped : ∀ kind : Awaitable, LockConforms self (fun later _ => later = phase) phase
      (future.drop kind .lock (.waiterDropped future.resource future.waiter) : RuntimeM Value Unit) := by
    intro kind
    simp only [Awaiting.drop, resolved, Bool.not_true, Bool.and_false, Bool.false_eq_true, if_false]
    exact ⟨trivial, fun _ _ => ⟨phase, rfl, rfl⟩⟩
  cases mode with
  | lock => exact dropped .lock
  | read => exact dropped .read
  | write => exact dropped .write

/-- A guard's release is reported before tokio gets the guard back. -/
theorem dropGuard_conforms (mode : LockMode) {phase : LockPhase} {guard : Guard}
    (guards : Guards mode phase guard) :
    LockConforms self (fun _ _ => True) phase (mode.dropGuard guard : RuntimeM Value Unit) := by
  obtain ⟨resource, waiter, hasMode, acquired⟩ := guards
  have dropped : LockConforms self (fun _ _ => True) phase (Guard.drop mode.kind guard : RuntimeM Value Unit) := by
    have spoken : phase.say (.released guard.resource guard.waiter mode.kind) =
        some { phase with progress := .released } := by
      simp [say, speaks, resource, waiter, hasMode, acquired]
    refine (announceLock_conforms spoken).bind ?_
    rintro _ _ rfl
    exact ⟨trivial, fun _ _ => ⟨_, rfl, trivial⟩⟩
  cases mode with
  | lock => exact dropped
  | read => exact dropped
  | write => exact dropped

/-- Every operation keeps to the protocol. -/
theorem lockStart_conforms {flavor : LockFlavor} {phase : LockPhase} {value : Option Acquisition}
    {operation : LockOperation} {program : RuntimeM Value (Option Acquisition)}
    (started : lockStart flavor self value operation = some program) (rests : Rest phase value) :
    LockConforms self Rest phase program := by
  unfold lockStart at started
  split at started
  · next mode =>
    obtain rfl : phase = {} := rests
    split at started
    · obtain rfl := Option.some.inj started
      refine (start_conforms mode).bind ?_
      rintro _ future ⟨unresolved, rfl⟩
      refine ⟨fun other isFuture _ => ⟨rfl, ?_⟩, nofun⟩
      obtain rfl := Option.some.inj isFuture
      rfl
    · cases started
  · next mode =>
    obtain rfl : phase = {} := rests
    split at started
    · obtain rfl := Option.some.inj started
      refine (attempt_conforms mode).bind ?_
      intro later result guards
      cases result with
      | error err => exact ⟨nofun, nofun⟩
      | ok guard =>
        refine ⟨nofun, fun other isGuard => ?_⟩
        obtain rfl := Option.some.inj isGuard
        exact guards guard rfl
    · cases started
  · obtain rfl : phase = {} := rests
    obtain rfl := Option.some.inj started
    refine (draw_conforms rfl rfl pure_unwinds).bind ?_
    rintro _ id rfl
    exact ⟨nofun, nofun⟩
  · next mode future guard =>
    split at started
    · cases started
    · next unresolved =>
      obtain rfl := Option.some.inj started
      obtain ⟨-, rfl⟩ := rests.1 future rfl (Bool.eq_false_iff.mpr unresolved)
      exact (poll_conforms mode future).bind fun later result rested => rested
  · next mode future guard =>
    obtain rfl := Option.some.inj started
    cases resolved : future.resolved with
    | false =>
      obtain ⟨rfl, rfl⟩ := rests.1 future rfl resolved
      exact (dropFuture_conforms mode resolved).bind fun later _ _ => ⟨nofun, nofun⟩
    | true =>
      refine (dropHusk_conforms mode resolved phase).bind ?_
      rintro _ _ rfl
      exact ⟨nofun, rests.2⟩
  · next mode future guard =>
    obtain rfl := Option.some.inj started
    refine (dropGuard_conforms mode (rests.2 guard rfl)).bind fun later _ _ => ⟨?_, nofun⟩
    intro other isFuture unresolved
    obtain ⟨absent, -⟩ := rests.1 other isFuture unresolved
    cases absent
  · cases started

end Conformance

/-- The waiter that a lock event speaks for. -/
def lockWaiter : Event → Option UInt64
  | .requested _ waiter _ | .acquired _ waiter _ | .released _ waiter _ | .waiterDropped _ waiter => some waiter
  | _ => none

/-- Guards that are out together are readers. -/
def Holders.Compatible (holders : Holders Process) : Prop :=
  ∀ first ∈ holders, ∀ second ∈ holders, first = second ∨ first.2 = .read ∧ second.2 = .read

variable [DecidableEq Process]

/-- What the trace says about the acquisitions. -/
structure LockReports (cell : Handle) (world : World (Holders Process)) (phases : Process → LockPhase) :
    Prop where
  hooked : Hooked world
  attributed : Attribution lockWaiter LockPhase.waiter LockPhase.said (· < world.nextWaiter) world.trace phases
  spoken : ∀ event ∈ world.trace, (lockWaiter event).isSome
  identified : ∀ process id, (phases process).resource = some id → world.atomics cell = id ∧ id ≠ 0
  named : ∀ event ∈ world.trace, event.resource = world.atomics cell ∧ event.resource ≠ 0

/-- What tokio granted to the acquisitions. -/
structure LockHeld (flavor : LockFlavor) (holders : Holders Process) (phases : Process → LockPhase) :
    Prop where
  held : ∀ process mode, (process, mode) ∈ holders ↔ (phases process).holds = some mode
  offered : ∀ holder ∈ holders, flavor.offers holder.2 = true
  compatible : Holders.Compatible holders

section Held

variable {flavor : LockFlavor} {holders : Holders Process} {phases : Process → LockPhase} {process : Process} {later : LockPhase}

theorem LockHeld.keep (held : LockHeld flavor holders phases) (same : later.holds = (phases process).holds) :
    LockHeld flavor holders (Function.update phases process later) := by
  refine ⟨fun other mode => ?_, held.offered, held.compatible⟩
  rw [update_agrees LockPhase.holds same]
  exact held.held other mode

/-- Tokio grants only what is compatible. -/
theorem LockHeld.grant (held : LockHeld flavor holders phases) {mode : LockMode} {granted : Holders Process}
    (grants : holders.grant flavor process mode = some granted) (free : (phases process).holds = none)
    (takes : later.holds = some mode) : LockHeld flavor granted (Function.update phases process later) := by
  unfold Holders.grant at grants
  split at grants
  · next conditions =>
    obtain ⟨offers, admits⟩ := (Bool.and_eq_true _ _).mp conditions
    obtain rfl := Option.some.inj grants
    have absent : ∀ mode', (process, mode') ∉ holders := by
      intro mode' member
      rw [held.held, free] at member
      cases member
    refine ⟨fun other mode' => ?_, fun holder member => ?_, ?_⟩
    · rcases eq_or_ne other process with rfl | different
      · rw [Function.update_self, takes]
        simp only [List.mem_cons, Prod.mk.injEq, true_and, absent, or_false, Option.some.injEq, eq_comm]
      · rw [Function.update_of_ne different, ← held.held]
        simp only [List.mem_cons, Prod.mk.injEq, different, false_and, false_or]
    · rcases List.mem_cons.mp member with rfl | member
      · exact offers
      · exact held.offered holder member
    · have readers : ∀ holder ∈ holders, mode = .read ∧ holder.2 = .read := by
        intro holder member
        cases mode with
        | read =>
          have all := List.all_eq_true.mp admits holder member
          exact ⟨rfl, by simpa using all⟩
        | lock | write =>
          rw [Holders.admits, List.isEmpty_iff] at admits
          rw [admits] at member
          cases member
      intro first isFirst second isSecond
      rcases List.mem_cons.mp isFirst with rfl | isFirst <;> rcases List.mem_cons.mp isSecond with rfl | isSecond
      · exact .inl rfl
      · exact .inr (readers second isSecond)
      · exact .inr (readers first isFirst).symm
      · exact held.compatible first isFirst second isSecond
  · cases grants

/-- A dropped guard is no longer out. -/
theorem LockHeld.release (held : LockHeld flavor holders phases) (gone : later.holds = none) :
    LockHeld flavor (holders.filter fun holder => holder.1 ≠ process) (Function.update phases process later) := by
  refine ⟨fun other mode => ?_, fun holder member => ?_, fun first isFirst second isSecond => ?_⟩
  · rw [List.mem_filter]
    rcases eq_or_ne other process with rfl | different
    · simp only [ne_eq, not_true_eq_false, decide_false, Bool.false_eq_true, and_false, Function.update_self,
        gone, reduceCtorEq]
    · rw [Function.update_of_ne different, held.held]
      simp only [ne_eq, different, not_false_eq_true, decide_true, and_true]
  · exact held.offered holder (List.mem_filter.mp member).1
  · exact held.compatible first (List.mem_filter.mp isFirst).1 second (List.mem_filter.mp isSecond).1

end Held

section Reports

variable {cell : Handle} {world next : World (Holders Process)} {phases : Process → LockPhase}
  {process : Process} {later : LockPhase}

/-- A move that reports nothing and learns nothing. -/
theorem LockReports.keep (reports : LockReports cell world phases) (hooked : Hooked next)
    (sameTrace : next.trace = world.trace) (sameCounter : next.nextWaiter = world.nextWaiter)
    (sameAtomics : next.atomics = world.atomics) (sameWaiter : later.waiter = (phases process).waiter)
    (sameSaid : later.said = (phases process).said)
    (sameResource : later.resource = (phases process).resource) :
    LockReports cell next (Function.update phases process later) := by
  refine ⟨hooked, ?_, ?_, ?_, ?_⟩
  · rw [sameTrace, sameCounter]
    exact reports.attributed.keep sameWaiter sameSaid
  · rw [sameTrace]
    exact reports.spoken
  · intro other id known
    rw [update_agrees LockPhase.resource sameResource] at known
    rw [sameAtomics]
    exact reports.identified other id known
  · rw [sameTrace, sameAtomics]
    exact reports.named

/-- An acquisition that has no waiter id yet learns the lock's resource id. -/
theorem LockReports.identify (reports : LockReports cell world phases) (hooked : Hooked next) {id : UInt64}
    (sameTrace : next.trace = world.trace) (sameCounter : next.nextWaiter = world.nextWaiter)
    (stored : next.atomics cell = id) (positive : id ≠ 0)
    (settled : world.atomics cell = 0 ∨ world.atomics cell = id)
    (identifies : (phases process).identify id = some later) :
    LockReports cell next (Function.update phases process later) := by
  have conditions : ((phases process).waiter = none ∧ (phases process).resource = none) ∧
      { phases process with resource := some id } = later := by
    simpa [LockPhase.identify] using identifies
  obtain ⟨⟨unnamed, unknown⟩, rfl⟩ := conditions
  have earlier : ∀ known, known ≠ 0 → world.atomics cell = known → next.atomics cell = known := by
    intro known isPositive current
    rcases settled with zero | same
    · exact absurd (current.symm.trans zero) isPositive
    · rw [stored, ← same, current]
  refine ⟨hooked, ?_, ?_, ?_, ?_⟩
  · rw [sameTrace, sameCounter]
    refine reports.attributed.keep rfl ?_
    simp only [said, unnamed, unknown]
  · rw [sameTrace]
    exact reports.spoken
  · intro other known isKnown
    rcases eq_or_ne other process with rfl | different
    · rw [Function.update_self] at isKnown
      obtain rfl := Option.some.inj isKnown
      exact ⟨stored, positive⟩
    · rw [Function.update_of_ne different] at isKnown
      obtain ⟨current, isPositive⟩ := reports.identified other known isKnown
      exact ⟨earlier known isPositive current, isPositive⟩
  · intro event member
    rw [sameTrace] at member
    obtain ⟨current, isPositive⟩ := reports.named event member
    exact ⟨(earlier event.resource isPositive current.symm).symm, isPositive⟩

/-- Before the first report nothing was said. -/
theorem said_of_quiet (phase : LockPhase) (quiet : phase.quiet = true) : phase.said = [] := by
  obtain ⟨resource, waiter, mode, requested, progress⟩ := phase
  cases resource <;> cases waiter <;> cases mode <;> cases requested <;> cases progress <;>
    first | rfl | cases quiet

/-- An acquisition draws a waiter id that nobody used. -/
theorem LockReports.draw (reports : LockReports cell world phases) (hooked : Hooked next)
    (sameTrace : next.trace = world.trace) (sameAtomics : next.atomics = world.atomics)
    (advanced : world.nextWaiter < next.nextWaiter)
    (draws : (phases process).draw world.nextWaiter = some later) :
    LockReports cell next (Function.update phases process later) := by
  have conditions : ((phases process).waiter = none ∧ (phases process).quiet = true) ∧
      { phases process with waiter := some world.nextWaiter } = later := by
    simpa [LockPhase.draw] using draws
  obtain ⟨⟨unnamed, quiet⟩, moved⟩ := conditions
  have sameResource : later.resource = (phases process).resource := by rw [← moved]
  have silent : later.said = [] := by
    rw [← moved]
    exact said_of_quiet _ quiet
  refine ⟨hooked, ?_, ?_, ?_, ?_⟩
  · rw [sameTrace]
    exact reports.attributed.draw unnamed (UInt64.lt_irrefl _) (by rw [← moved]) silent
      (fun name less => UInt64.lt_trans less advanced) advanced
  · rw [sameTrace]
    exact reports.spoken
  · intro other id known
    rw [update_agrees LockPhase.resource sameResource] at known
    rw [sameAtomics]
    exact reports.identified other id known
  · rw [sameTrace, sameAtomics]
    exact reports.named

/-- What an acquisition reports is about itself. -/
theorem say_spec {phase later : LockPhase} {event : Event} (spoken : phase.say event = some later) :
    phase.waiter = lockWaiter event ∧ (lockWaiter event).isSome ∧ phase.resource = some event.resource ∧
      later.waiter = phase.waiter ∧ later.resource = phase.resource ∧ later.said = phase.said ++ [event] ∧
      later.holds = phase.holds := by
  obtain ⟨resource, waiter, mode, requested, progress⟩ := phase
  cases event
  case requested resource' waiter' kind =>
    simp only [say, speaks, Option.ite_none_right_eq_some, Bool.and_eq_true, decide_eq_true_eq,
      Option.map_eq_some_iff, Bool.not_eq_true', Option.some.injEq] at spoken
    obtain ⟨⟨⟨⟨⟨rfl, rfl⟩, ⟨mode, rfl, rfl⟩⟩, rfl⟩, rfl⟩, rfl⟩ := spoken
    exact ⟨rfl, rfl, rfl, rfl, rfl, rfl, rfl⟩
  case acquired resource' waiter' kind =>
    simp only [say, speaks, Option.ite_none_right_eq_some, Bool.and_eq_true, decide_eq_true_eq,
      Option.map_eq_some_iff, Option.some.injEq] at spoken
    obtain ⟨⟨⟨⟨rfl, rfl⟩, ⟨mode, rfl, rfl⟩⟩, rfl⟩, rfl⟩ := spoken
    exact ⟨rfl, rfl, rfl, rfl, rfl, by cases requested <;> rfl, rfl⟩
  case released resource' waiter' kind =>
    simp only [say, speaks, Option.ite_none_right_eq_some, Bool.and_eq_true, decide_eq_true_eq,
      Option.map_eq_some_iff, Option.some.injEq] at spoken
    obtain ⟨⟨⟨⟨rfl, rfl⟩, ⟨mode, rfl, rfl⟩⟩, rfl⟩, rfl⟩ := spoken
    exact ⟨rfl, rfl, rfl, rfl, rfl, by cases requested <;> rfl, rfl⟩
  case waiterDropped resource' waiter' =>
    obtain ⟨conditions, moved⟩ := Option.ite_none_right_eq_some.mp spoken
    simp only [speaks, Bool.and_eq_true, decide_eq_true_eq, Option.isSome_iff_exists] at conditions
    obtain ⟨⟨⟨⟨rfl, rfl⟩, ⟨mode, rfl⟩⟩, rfl⟩, rfl⟩ := conditions
    obtain rfl := Option.some.inj moved
    exact ⟨rfl, rfl, rfl, rfl, rfl, rfl, rfl⟩
  all_goals cases spoken

theorem LockReports.say (reports : LockReports cell world phases) (hooked : Hooked next) {event : Event}
    (appended : next.trace = world.trace ++ [event]) (sameCounter : next.nextWaiter = world.nextWaiter)
    (sameAtomics : next.atomics = world.atomics) (spoken : (phases process).say event = some later) :
    LockReports cell next (Function.update phases process later) := by
  obtain ⟨own, owned, resource, sameWaiter, sameResource, appendedSaid, -⟩ := say_spec spoken
  obtain ⟨waiter, isWaiter⟩ := Option.isSome_iff_exists.mp owned
  obtain ⟨current, positive⟩ := reports.identified process event.resource resource
  refine ⟨hooked, ?_, ?_, ?_, ?_⟩
  · rw [appended, sameCounter]
    exact reports.attributed.write (own.trans isWaiter) isWaiter (sameWaiter.trans (own.trans isWaiter)) appendedSaid
  · intro other member
    rw [appended] at member
    rcases List.mem_append.mp member with earlier | last
    · exact reports.spoken other earlier
    · obtain rfl := List.mem_singleton.mp last
      exact owned
  · intro other id known
    rw [update_agrees LockPhase.resource sameResource] at known
    rw [sameAtomics]
    exact reports.identified other id known
  · intro other member
    rw [appended] at member
    rw [sameAtomics]
    rcases List.mem_append.mp member with earlier | last
    · exact reports.named other earlier
    · obtain rfl := List.mem_singleton.mp last
      exact ⟨current.symm, positive⟩

end Reports

section Steps

variable {flavor : LockFlavor} {cell : Handle} {holders granted : Holders Process} {phases : Process → LockPhase} {process : Process}
  {later : LockPhase}

/-- What an answer of tokio leaves alone: the ids and what was reported. -/
def Silent (phase later : LockPhase) : Prop :=
  later.waiter = phase.waiter ∧ later.said = phase.said ∧ later.resource = phase.resource

theorem want_spec {phase : LockPhase} {mode : LockMode} (wanted : phase.want mode = some later) :
    Silent phase later ∧ later.holds = phase.holds := by
  obtain ⟨resource, waiter, mode', requested, progress⟩ := phase
  obtain ⟨conditions, moved⟩ := Option.ite_none_right_eq_some.mp wanted
  obtain rfl := Option.some.inj moved
  simp only [Bool.and_eq_true, decide_eq_true_eq] at conditions
  obtain ⟨⟨quiet, rfl⟩, rfl⟩ := conditions
  have same : said ⟨resource, waiter, some mode, requested, .waiting⟩ =
      said ⟨resource, waiter, none, requested, .waiting⟩ :=
    (said_of_quiet ⟨resource, waiter, some mode, requested, .waiting⟩ quiet).trans
      (said_of_quiet _ quiet).symm
  exact ⟨⟨rfl, same, rfl⟩, rfl⟩

theorem answered_ready_spec {phase : LockPhase} {mode : LockMode} {handle : Handle}
    (moved : phase.answered mode (.ready handle) = some later) :
    Silent phase later ∧ phase.holds = none ∧ later.holds = some mode := by
  obtain ⟨resource, waiter, mode', requested, progress⟩ := phase
  obtain ⟨conditions, moved⟩ := Option.ite_none_right_eq_some.mp moved
  obtain rfl := Option.some.inj moved
  simp only [Bool.and_eq_true, decide_eq_true_eq] at conditions
  obtain ⟨rfl, rfl⟩ := conditions
  exact ⟨⟨rfl, rfl, rfl⟩, rfl, rfl⟩

theorem attempted_ok_spec {phase : LockPhase} {mode : LockMode} {handle : Handle}
    (moved : phase.attempted mode (.ok handle) = some later) :
    Silent phase later ∧ phase.holds = none ∧ later.holds = some mode := by
  obtain ⟨fresh, moved⟩ := Option.ite_none_right_eq_some.mp moved
  subst fresh
  obtain rfl := Option.some.inj moved
  exact ⟨⟨rfl, rfl, rfl⟩, rfl, rfl⟩

theorem giveBack_spec {phase : LockPhase} (moved : phase.giveBack = some later) :
    Silent phase later ∧ later.holds = none := by
  obtain ⟨resource, waiter, mode, requested, progress⟩ := phase
  cases progress with
  | granted | released =>
    obtain rfl := Option.some.inj moved
    exact ⟨⟨rfl, rfl, rfl⟩, rfl⟩
  | waiting | acquired | returned | withdrawn | dropped => cases moved

theorem identify_holds {phase : LockPhase} {id : UInt64} (moved : phase.identify id = some later) :
    later.holds = phase.holds := by
  obtain ⟨-, moved⟩ := Option.ite_none_right_eq_some.mp moved
  obtain rfl := Option.some.inj moved
  rfl

theorem draw_holds {phase : LockPhase} {id : UInt64} (moved : phase.draw id = some later) :
    later.holds = phase.holds := by
  obtain ⟨-, moved⟩ := Option.ite_none_right_eq_some.mp moved
  obtain rfl := Option.some.inj moved
  rfl

/-- A poll of the lock that tokio answers. -/
theorem answered_held (held : LockHeld flavor holders phases) {mode : LockMode} {grants : Bool} {answer : Poll Handle}
    (answers : (if grants then (holders.grant flavor process mode).map fun holders => (Poll.ready (0 : Handle), holders)
      else some (.pending, holders)) = some (answer, granted))
    (moved : (phases process).answered mode answer = some later) :
    Silent (phases process) later ∧ LockHeld flavor granted (Function.update phases process later) := by
  cases grants with
  | false =>
    cases answers
    obtain rfl := Option.some.inj moved
    exact ⟨⟨rfl, rfl, rfl⟩, held.keep rfl⟩
  | true =>
    obtain ⟨taken, grant, same⟩ := Option.map_eq_some_iff.mp answers
    cases same
    obtain ⟨silent, free, takes⟩ := answered_ready_spec moved
    exact ⟨silent, held.grant grant free takes⟩

/-- An attempt on the lock that tokio answers. -/
theorem attempted_held (held : LockHeld flavor holders phases) {mode : LockMode} {grants : Bool}
    {result : Except Unit Handle}
    (answers : (if grants then (holders.grant flavor process mode).map fun holders => (Except.ok (0 : Handle), holders)
      else some (.error (), holders)) = some (result, granted))
    (moved : (phases process).attempted mode result = some later) :
    Silent (phases process) later ∧ LockHeld flavor granted (Function.update phases process later) := by
  cases grants with
  | false =>
    cases answers
    obtain rfl := Option.some.inj moved
    exact ⟨⟨rfl, rfl, rfl⟩, held.keep rfl⟩
  | true =>
    obtain ⟨taken, grant, same⟩ := Option.map_eq_some_iff.mp answers
    cases same
    obtain ⟨silent, free, takes⟩ := attempted_ok_spec moved
    exact ⟨silent, held.grant grant free takes⟩

/-- Every call of tokio that the protocol permits. -/
theorem tokio_held (held : LockHeld flavor holders phases) {call : Tokio Value} {choice : Bool} {reply : call.Reply}
    (answers : exclusiveLock flavor process holders call choice = some (reply, granted))
    (moved : (phases process).after cell (.tokio call) reply = some later) :
    Silent (phases process) later ∧ LockHeld flavor granted (Function.update phases process later) := by
  cases call
  case lock | read | write =>
    cases answers
    obtain ⟨silent, same⟩ := want_spec moved
    exact ⟨silent, held.keep same⟩
  case poll kind future =>
    cases kind
    case lock | read | write => exact answered_held held answers moved
    all_goals cases answers
  case tryLock | tryRead | tryWrite => exact attempted_held held answers moved
  case dropGuard =>
    cases answers
    obtain ⟨silent, gone⟩ := giveBack_spec moved
    exact ⟨silent, held.release gone⟩
  case dropFuture =>
    cases answers
    obtain rfl := Option.some.inj moved
    exact ⟨⟨rfl, rfl, rfl⟩, held.keep rfl⟩
  all_goals cases answers

/-- Every effect that the protocol permits keeps the invariant. -/
theorem lock_answers {world next : World (Holders Process)} (reports : LockReports cell world phases)
    (held : LockHeld flavor world.inner phases) {effect : Effect Value} {choice : Bool} {reply : effect.Reply}
    (answered : world.answer (exclusiveLock flavor process) effect choice = some (reply, next))
    (moved : (phases process).after cell effect reply = some later) :
    LockReports cell next (Function.update phases process later) ∧
      LockHeld flavor next.inner (Function.update phases process later) := by
  have hooked := (reports.hooked.answer answered).2
  cases effect with
  | tokio call =>
    obtain ⟨⟨reply', inner⟩, answers, same⟩ := Option.map_eq_some_iff.mp answered
    cases same
    obtain ⟨⟨sameWaiter, sameSaid, sameResource⟩, nowHeld⟩ := tokio_held held answers moved
    exact ⟨reports.keep hooked rfl rfl rfl sameWaiter sameSaid sameResource, nowHeld⟩
  | load atomic =>
    cases answered
    obtain ⟨rfl, loaded⟩ := Option.ite_none_right_eq_some.mp moved
    split at loaded
    · obtain rfl := Option.some.inj loaded
      exact ⟨reports.keep hooked rfl rfl rfl rfl rfl rfl, held.keep rfl⟩
    · next assigned =>
      exact ⟨reports.identify hooked rfl rfl rfl assigned (.inr rfl) loaded,
        held.keep (identify_holds loaded)⟩
  | compareExchange atomic expected new =>
    simp only [World.answer] at answered
    split at answered
    · next stored =>
      cases answered
      obtain ⟨⟨rfl, rfl, positive⟩, exchanged⟩ := Option.ite_none_right_eq_some.mp moved
      exact ⟨reports.identify hooked rfl rfl (Function.update_self ..) positive (.inl stored) exchanged,
        held.keep (identify_holds exchanged)⟩
    · next stored =>
      cases answered
      obtain ⟨⟨rfl, rfl⟩, exchanged⟩ := Option.ite_none_right_eq_some.mp moved
      exact ⟨reports.identify hooked rfl rfl rfl stored (.inr rfl) exchanged, held.keep (identify_holds exchanged)⟩
  | nextWaiter =>
    cases answered
    cases fetched : (fetchNext world.nextWaiter).1 with
    | none =>
      rw [fetched] at moved
      obtain rfl := Option.some.inj moved
      exact ⟨reports.keep hooked rfl (fetchNext_none fetched) rfl rfl rfl rfl, held.keep rfl⟩
    | some id =>
      obtain ⟨rfl, advanced⟩ := fetchNext_some fetched
      rw [fetched] at moved
      exact ⟨reports.draw hooked rfl rfl advanced moved, held.keep (draw_holds moved)⟩
  | report event =>
    cases answered
    exact ⟨reports.say hooked rfl rfl rfl moved, held.keep (say_spec moved).2.2.2.2.2.2⟩
  | hook | nextResource =>
    cases answered
    obtain rfl := Option.some.inj moved
    exact ⟨reports.keep hooked rfl rfl rfl rfl rfl rfl, held.keep rfl⟩
  | newAtomic | fetchAdd | newFlag | swapFlag => cases moved
  | panic => cases answered

end Steps

section Runs

/-- The lock before its first use, with the hook installed: `new` has stored an id, `const_new` none. -/
structure LockStart (world : World (Holders Process)) : Prop where
  hooked : Hooked world
  silent : world.trace = []
  free : world.inner = []

/-- A state of the lock that some run reaches. -/
def LockReaches (Value : Type) (flavor : LockFlavor) (self : Primitive) (world : World (Holders Process))
    (final : System.Config (Effect Value) Effect.Reply Process (Option Acquisition) (World (Holders Process))) :
    Prop :=
  ∃ actions, run? (lockSystem Value flavor self).step ⟨world, fun _ => .done none⟩ actions = some final

variable {flavor : LockFlavor} {self : Primitive} {world : World (Holders Process)}
  {final : System.Config (Effect Value) Effect.Reply Process (Option Acquisition) (World (Holders Process))}

/-- The invariant holds in every reachable state. -/
theorem lock_invariant_of_run (start : LockStart world) (reached : LockReaches Value flavor self world final) :
    ∃ phases, LockReports self.resource final.shared phases ∧ LockHeld flavor final.shared.inner phases := by
  obtain ⟨actions, reached⟩ := reached
  have initially : System.Phased (lockProtocol self.resource) Rest
      (fun world phases => LockReports self.resource world phases ∧ LockHeld flavor world.inner phases)
      (⟨world, fun _ => .done none⟩ : System.Config (Effect Value) Effect.Reply Process _ _)
      (fun _ => {}) := by
    refine ⟨⟨⟨start.hooked, ⟨nofun, nofun, nofun, ?_⟩, ?_, nofun, ?_⟩, ⟨?_, ?_, ?_⟩⟩, fun _ => rfl⟩
    · rw [start.silent]
      exact nofun
    · rw [start.silent]
      exact nofun
    · rw [start.silent]
      exact nofun
    · intro process mode
      rw [start.free]
      exact ⟨nofun, nofun⟩
    · rw [start.free]
      exact nofun
    · rw [start.free]
      exact nofun
  obtain ⟨phases, ⟨reports, held⟩, -⟩ := System.phases_of_run
    (fun _ _ _ _ _ started rests => lockStart_conforms started rests)
    (fun _ _ _ _ _ _ _ invariant answered =>
      ⟨(invariant.1.hooked.answer answered).1, fun _ _ moved => lock_answers invariant.1 invariant.2 answered moved⟩)
    initially reached
  exact ⟨phases, reports, held⟩

/-- A waiter that the trace shows as acquired and not released. -/
def Outstanding (trace : List Event) (waiter : UInt64) (kind : AsyncAcquireKind) : Prop :=
  (∃ resource, .acquired resource waiter kind ∈ trace) ∧
    ∀ resource kind, .released resource waiter kind ∉ trace

/-- Mutual exclusion, as the trace shows it. -/
def TraceExcludes : LockFlavor → List Event → Prop
  | .mutex, trace =>
      ∀ waiter other kind kind', Outstanding trace waiter kind → Outstanding trace other kind' → waiter = other
  | .rwLock, trace =>
      (∀ waiter, ¬ Outstanding trace waiter .rwWrite) ∨
        (∀ waiter, ¬ Outstanding trace waiter .rwRead) ∧
          ∀ waiter other, Outstanding trace waiter .rwWrite → Outstanding trace other .rwWrite → waiter = other

/-- The acquisitions that a trace reports for a waiter. -/
def acquisitionsOf (waiter : UInt64) (trace : List Event) : List Event :=
  trace.filter fun
    | .acquired _ waiter' _ => waiter' = waiter
    | _ => false

/-- Every release follows one acquisition of its waiter, of the same kind, and is the waiter's last event. -/
def ReleasesMatched (trace : List Event) : Prop :=
  ∀ before after resource waiter kind, trace = before ++ .released resource waiter kind :: after →
    acquisitionsOf waiter before = [.acquired resource waiter kind] ∧
      ∀ event ∈ after, lockWaiter event ≠ some waiter

/-- An acquisition that reported itself and not its end holds the lock. -/
theorem holds_of_said {phase : LockPhase} {resource waiter : UInt64} {kind : AsyncAcquireKind}
    (acquired : .acquired resource waiter kind ∈ phase.said)
    (unreleased : ∀ resource kind, .released resource waiter kind ∉ phase.said) :
    ∃ mode, phase.holds = some mode ∧ mode.kind = kind := by
  obtain ⟨_ | resource', _ | waiter', _ | mode, requested, progress⟩ := phase
  case some.some.some =>
    cases progress
    case acquired =>
      refine ⟨mode, rfl, ?_⟩
      cases requested <;> simp_all [said]
    case released | returned =>
      exact absurd (by cases requested <;> simp_all [said]) (unreleased resource' mode.kind)
    all_goals cases requested <;> simp [said] at acquired
  all_goals cases acquired

/-- A release is the last thing an acquisition reports, right after its acquisition. -/
theorem said_release {phase : LockPhase} {before after : List Event} {resource waiter : UInt64}
    {kind : AsyncAcquireKind} (split : phase.said = before ++ .released resource waiter kind :: after) :
    after = [] ∧ acquisitionsOf waiter before = [.acquired resource waiter kind] := by
  have isSaid : .released resource waiter kind ∈ phase.said := by
    rw [split]
    exact List.mem_append_right _ (List.mem_cons_self ..)
  obtain ⟨_ | resource', _ | waiter', _ | mode, requested, progress⟩ := phase
  case some.some.some =>
    cases progress
    case released | returned =>
      have ends : ((if requested then [.requested resource' waiter' mode.kind] else []) ++
          [.acquired resource' waiter' mode.kind]) ++ [.released resource' waiter' mode.kind] =
            before ++ .released resource waiter kind :: after := by
        rw [← split, List.append_assoc]
        rfl
      obtain ⟨rfl, same, rfl⟩ := append_singleton_split ends (by cases requested <;> simp)
      cases same
      exact ⟨rfl, by cases requested <;> simp [acquisitionsOf]⟩
    all_goals cases requested <;> simp [said] at isSaid
  all_goals cases isSaid

/-- Looking for a waiter's acquisitions, its own events are enough. -/
theorem acquisitionsOf_under (waiter : UInt64) (trace : List Event) :
    acquisitionsOf waiter (under lockWaiter waiter trace) = acquisitionsOf waiter trace := by
  unfold acquisitionsOf under
  rw [List.filter_filter]
  refine List.filter_congr fun event _ => ?_
  cases event <;> simp [lockWaiter]

omit [DecidableEq Process] in
/-- Whoever is shown to hold the lock holds it. -/
theorem outstanding_holds {phases : Process → LockPhase} (reports : LockReports self.resource world phases)
    {waiter : UInt64} {kind : AsyncAcquireKind} (outstanding : Outstanding world.trace waiter kind) :
    ∃ process mode, (phases process).waiter = some waiter ∧ (phases process).holds = some mode ∧
      mode.kind = kind := by
  obtain ⟨⟨resource, acquired⟩, unreleased⟩ := outstanding
  obtain ⟨process, named⟩ := reports.attributed.written _ acquired waiter rfl
  have own := reports.attributed.own process waiter named
  have isSaid : .acquired resource waiter kind ∈ (phases process).said := by
    rw [← own]
    exact List.mem_filter.mpr ⟨acquired, by simp only [lockWaiter, decide_true]⟩
  have notSaid : ∀ resource kind, .released resource waiter kind ∉ (phases process).said := by
    intro resource' kind' member
    rw [← own] at member
    exact unreleased resource' kind' (List.mem_filter.mp member).1
  obtain ⟨mode, holds, isKind⟩ := holds_of_said isSaid notSaid
  exact ⟨process, mode, named, holds, isKind⟩

omit [DecidableEq Process] in
/-- Two acquisitions shown at the same time are one, or two readers. -/
theorem outstanding_compatible {phases : Process → LockPhase} (reports : LockReports self.resource world phases)
    (held : LockHeld flavor world.inner phases) {waiter other : UInt64} {kind kind' : AsyncAcquireKind}
    (one : Outstanding world.trace waiter kind) (two : Outstanding world.trace other kind') :
    waiter = other ∧ kind = kind' ∨ kind = .rwRead ∧ kind' = .rwRead ∧ flavor = .rwLock := by
  obtain ⟨process, mode, named, holds, rfl⟩ := outstanding_holds reports one
  obtain ⟨process', mode', named', holds', rfl⟩ := outstanding_holds reports two
  have first := (held.held process mode).mpr holds
  have second := (held.held process' mode').mpr holds'
  rcases held.compatible _ first _ second with same | ⟨isRead, isRead'⟩
  · obtain ⟨rfl, rfl⟩ := Prod.mk.inj same
    exact .inl ⟨Option.some.inj (named.symm.trans named'), rfl⟩
  · dsimp only at isRead isRead'
    subst isRead isRead'
    refine .inr ⟨rfl, rfl, ?_⟩
    have offered := held.offered _ first
    cases flavor with
    | mutex => cases offered
    | rwLock => rfl

omit [DecidableEq Process] in
theorem traceExcludes_of_invariant {phases : Process → LockPhase}
    (reports : LockReports self.resource world phases) (held : LockHeld flavor world.inner phases) :
    TraceExcludes flavor world.trace := by
  cases flavor with
  | mutex =>
    intro waiter other kind kind' one two
    rcases outstanding_compatible reports held one two with ⟨same, -⟩ | ⟨-, -, absurd⟩
    · exact same
    · cases absurd
  | rwLock =>
    by_cases written : ∃ waiter, Outstanding world.trace waiter .rwWrite
    · obtain ⟨writer, writes⟩ := written
      refine .inr ⟨fun reader reads => ?_, fun waiter other one two => ?_⟩
      · rcases outstanding_compatible reports held writes reads with ⟨-, same⟩ | ⟨same, -, -⟩ <;> cases same
      · rcases outstanding_compatible reports held one two with ⟨same, -⟩ | ⟨same, -, -⟩
        · exact same
        · cases same
    · exact .inl fun waiter writes => written ⟨waiter, writes⟩

omit [DecidableEq Process] in
theorem releasesMatched_of_invariant {phases : Process → LockPhase}
    (reports : LockReports self.resource world phases) : ReleasesMatched world.trace := by
  intro before after resource waiter kind split
  have member : .released resource waiter kind ∈ world.trace := by
    rw [split]
    exact List.mem_append_right _ (List.mem_cons_self ..)
  obtain ⟨process, named⟩ := reports.attributed.written _ member waiter rfl
  have own := reports.attributed.own process waiter named
  have parts : (phases process).said =
      under lockWaiter waiter before ++ .released resource waiter kind :: under lockWaiter waiter after := by
    rw [← own, split]
    simp only [under, List.filter_append, List.filter_cons, lockWaiter, decide_true, if_true]
  obtain ⟨none, acquisitions⟩ := said_release parts
  refine ⟨?_, fun event isAfter owned => ?_⟩
  · rw [← acquisitionsOf_under]
    exact acquisitions
  · have inNone : event ∈ under lockWaiter waiter after :=
      List.mem_filter.mpr ⟨isAfter, by simp only [owned, decide_true]⟩
    rw [none] at inNone
    cases inNone

/-- **Trace mutual exclusion of the async locks.** For any set of threads and any interleaving, every prefix
of the trace excludes as the lock does, and matches its releases. -/
theorem async_lock_trace_excludes (start : LockStart world)
    (reached : LockReaches Value flavor self world final) (part : List Event)
    (isPart : part <+: final.shared.trace) : TraceExcludes flavor part ∧ ReleasesMatched part := by
  obtain ⟨actions, reached⟩ := reached
  obtain ⟨past, config, before, rfl⟩ := trace_prefix_reached start.silent reached isPart
  obtain ⟨phases, reports, held⟩ := lock_invariant_of_run start ⟨past, before⟩
  exact ⟨traceExcludes_of_invariant reports held, releasesMatched_of_invariant reports⟩

/-- Two threads contend for a mutex: the second waits until the first has dropped its guard. -/
def contendedRun : List (System.Action Bool LockOperation Bool) :=
  List.flatten [[.start false (.start .lock)], List.replicate 5 (.advance false true), [.start false .poll],
    List.replicate 3 (.advance false true), [.start true (.start .lock)], List.replicate 3 (.advance true true),
    [.start true .poll], List.replicate 3 (.advance true false), [.start false .dropGuard],
    List.replicate 3 (.advance false true), [.start true .poll], List.replicate 3 (.advance true true)]

theorem async_lock_trace_excludes_contended :
    ∃ final, LockReaches Unit .mutex ⟨0, 0⟩ ({ inner := [] } : World (Holders Bool)) final ∧
      final.shared.trace = [.acquired 1 1 .mutex, .requested 1 2 .mutex, .released 1 1 .mutex,
        .acquired 1 2 .mutex] ∧
      TraceExcludes .mutex final.shared.trace ∧ ReleasesMatched final.shared.trace := by
  have reached : LockReaches Unit .mutex ⟨0, 0⟩ ({ inner := [] } : World (Holders Bool)) _ :=
    ⟨contendedRun, rfl⟩
  refine ⟨_, reached, rfl, ?_⟩
  exact async_lock_trace_excludes ⟨⟨rfl, by decide⟩, rfl, rfl⟩ reached _ (List.prefix_refl _)

end Runs

end Laplace.Soundness
