import Mathlib.Algebra.GroupWithZero.Nat
import Mathlib.Algebra.Order.BigOperators.Group.Finset
import Laplace.Model.SemaphoreRuns
import Laplace.Soundness.RuntimeRuns

/-! # The permit ledger of an async semaphore

The trace of a semaphore is a ledger: permits acquired and released, the creation and what was added.
Permits are reported after tokio gave them out and before it gets them back, so the ledger never shows
more permits out than there are. Two reports come late: `add_permits` reports after it forwarded, and
`hook_with_created` marks the creation as reported before it reports it. `PermitPhase` counts what one
process has in each of these gaps, and the invariant is that the ledger and the gaps add up.
-/

namespace Laplace.Soundness

open Laplace.Machine Laplace.Model Laplace.Model.Runtime

variable {Value Process : Type}

/-- What one use of the semaphore has under way. -/
structure PermitPhase where
  /-- The size of its future. -/
  wanted : ℕ := 0
  /-- It has to report the creation next. -/
  window : Bool := false
  /-- It has passed `hook_with_created`. -/
  cleared : Bool := false
  /-- Given out by tokio, not reported. -/
  granted : ℕ := 0
  /-- Reported as acquired, not as released. -/
  shown : ℕ := 0
  /-- Reported as released, still out. -/
  returning : ℕ := 0
  /-- Forwarded to tokio, not reported. -/
  adding : ℕ := 0
deriving DecidableEq

namespace PermitPhase

def out (phase : PermitPhase) : ℕ := phase.granted + phase.shown + phase.returning

/-- Tokio takes back permits whose release was reported, or that were never reported. -/
def giveBack (phase : PermitPhase) (n : ℕ) : Option PermitPhase :=
  if n ≤ phase.returning then some { phase with returning := phase.returning - n }
  else if n ≤ phase.granted then some { phase with granted := phase.granted - n }
  else none

def say (initial : ℕ) (phase : PermitPhase) : Event → Option PermitPhase
  | .semaphoreCreated _ permits =>
      if phase.window && permits = initial then some { phase with window := false } else none
  | .requested .. | .waiterDropped .. => if phase.cleared && !phase.window then some phase else none
  | .acquired _ _ (.semaphorePermits n) =>
      if phase.cleared && !phase.window && n.toNat ≤ phase.granted then
        some { phase with granted := phase.granted - n.toNat, shown := phase.shown + n.toNat }
      else none
  | .released _ _ (.semaphorePermits n) =>
      if phase.cleared && !phase.window && n.toNat ≤ phase.shown then
        some { phase with shown := phase.shown - n.toNat, returning := phase.returning + n.toNat }
      else none
  | .permitsAdded _ n =>
      if phase.cleared && !phase.window && n ≤ phase.adding then
        some { phase with adding := phase.adding - n }
      else none
  | _ => none

/-- The protocol of one use of the semaphore. -/
def after (self : ModelAsyncSemaphore) (phase : PermitPhase) :
    (effect : Effect Value) → effect.Reply → Option PermitPhase
  | .tokio (.acquire _), _ => some { phase with wanted := 1 }
  | .tokio (.acquireMany _ n), _ => some { phase with wanted := n.toNat }
  | .tokio (.poll .acquire _), .ready (.ok _) => some { phase with granted := phase.granted + phase.wanted }
  | .tokio (.poll .acquire _), .ready (.error _) => some phase
  | .tokio (.poll .acquire _), .pending => some phase
  | .tokio (.tryAcquire _), .ok _ => some { phase with granted := phase.granted + 1 }
  | .tokio (.tryAcquire _), .error _ => some phase
  | .tokio (.tryAcquireMany _ n), .ok _ => some { phase with granted := phase.granted + n.toNat }
  | .tokio (.tryAcquireMany _ _), .error _ => some phase
  | .tokio (.dropGuard (.semaphorePermits n) _), _ => phase.giveBack n.toNat
  | .tokio (.forgetPermit _), _ => some phase
  | .tokio (.dropFuture _ _), _ => some phase
  | .tokio (.addPermits _ n), _ => some { phase with adding := phase.adding + n }
  | .swapFlag flag, was =>
      if flag = self.createdReported then some { phase with window := !was, cleared := true } else none
  | .report event, _ => phase.say self.initialPermits event
  | .load _, _ => some phase
  | .compareExchange _ _ _, _ => some phase
  | .nextResource, _ => some phase
  | .nextWaiter, _ => some phase
  | .hook _, _ => some phase
  | _, _ => none

/-- The phase that suits a use between two operations. -/
def Rest (self : ModelAsyncSemaphore) (phase : PermitPhase) : Option PermitUse → Prop
  | none => phase = {}
  | some use =>
      phase.window = false ∧ phase.adding = 0 ∧
      (∀ future, use.future = some future → future.resolved = false →
        use.permit = none ∧ phase.wanted = future.permits.toNat ∧
          future.initialPermits = self.initialPermits ∧ future.createdReported = self.createdReported ∧
            (future.requestedEmitted = true → phase.cleared = true)) ∧
      ∀ permit, use.permit = some permit →
        permit.inner.isSome ∧ permit.permits.toNat ≤ phase.shown ∧ phase.cleared = true

end PermitPhase

open PermitPhase

/-- The protocol of the semaphore's uses while a hook is installed. Whoever won the swap reports the
creation before anything else. -/
def permitProtocol (Value : Type) (self : ModelAsyncSemaphore) :
    Protocol (Effect Value) Effect.Reply PermitPhase where
  permits phase effect := phase.window = true → ∃ resource permits,
    effect = .report (.semaphoreCreated resource permits)
  possible := hookedReply
  after := PermitPhase.after self

section Conformance

variable {α : Type}

/-- A program of the runtime keeps to the protocol of the semaphore's uses. -/
abbrev PermitConforms (self : ModelAsyncSemaphore) (rest : PermitPhase → α → Prop) (phase : PermitPhase)
    (program : RuntimeM Value α) : Prop :=
  program.Conforms (permitProtocol Value self) rest phase

variable {self : ModelAsyncSemaphore} {phase later : PermitPhase}

theorem permitted (settled : phase.window = false) (effect : Effect Value) :
    (permitProtocol Value self).permits phase effect := by
  intro inWindow
  rw [settled] at inWindow
  cases inWindow

theorem permitProtocol_ignores (Value : Type) (self : ModelAsyncSemaphore) {phase : PermitPhase}
    (settled : phase.window = false) :
    Ignores (permitProtocol Value self) phase := by
  intro effect books
  refine ⟨permitted settled effect, fun reply _ => ?_⟩
  cases effect
  case panic => cases reply
  case load | compareExchange | nextResource | hook => rfl
  all_goals cases books

/-- A single effect outside the window. -/
theorem permit_perform {effect : Effect Value} {rest : PermitPhase → effect.Reply → Prop}
    (settled : phase.window = false)
    (moves : ∀ reply, ∃ later, phase.after self effect reply = some later ∧ rest later reply) :
    PermitConforms self rest phase (perform effect) :=
  ⟨permitted settled effect, fun reply _ => moves reply⟩

/-- Waiter ids do not matter for the permits. -/
theorem draws_unnoticed (settled : phase.window = false) :
    PermitConforms self (fun later id => match id with
      | some _ => later = phase
      | none => later = phase) phase (perform .nextWaiter : RuntimeM Value (Option UInt64)) :=
  permit_perform settled fun id => ⟨phase, rfl, by cases id <;> rfl⟩

/-- Reporting without `hook_with_created`, by someone who has passed it. -/
theorem announce_conforms {event : Event} (settled : phase.window = false)
    (spoken : phase.say self.initialPermits event = some later) :
    PermitConforms self (fun reached _ => reached = later) phase
      (withHook .lock (report event) : RuntimeM Value Unit) := by
  refine Program.conforms_perform_bind.mpr ⟨permitted settled _,
    fun installed isInstalled => ⟨phase, rfl, ?_⟩⟩
  obtain rfl : installed = true := isInstalled
  exact permit_perform settled fun _ => ⟨later, spoken, rfl⟩

/-- Reporting through `hook_with_created`, which clears the way. -/
theorem announceCreated_conforms (phase : PermitPhase) {event : Event} {resource : UInt64}
    (settled : phase.window = false)
    (spoken : say self.initialPermits { phase with cleared := true } event = some later) :
    PermitConforms self (fun reached _ => reached = later) phase
      (announceCreated self.createdReported self.initialPermits resource event : RuntimeM Value Unit) := by
  refine Program.conforms_perform_bind.mpr ⟨permitted settled _,
    fun installed isInstalled => ⟨phase, rfl, ?_⟩⟩
  obtain rfl : installed = true := isInstalled
  have reports : ∀ reached, reached = { phase with cleared := true } →
      PermitConforms self (fun reached _ => reached = later) reached (report event : RuntimeM Value Unit) := by
    rintro _ rfl
    exact permit_perform settled fun _ => ⟨later, spoken, rfl⟩
  refine Program.conforms_perform_bind.mpr ⟨permitted settled _, fun was _ =>
    ⟨{ phase with window := !was, cleared := true }, by simp only [permitProtocol, after, if_true], ?_⟩⟩
  cases was with
  | true =>
    refine reports _ ?_
    simp only [Bool.not_true, settled]
  | false =>
    refine Program.conforms_perform_bind.mpr ⟨fun _ => ⟨resource, self.initialPermits, rfl⟩, fun _ _ =>
      ⟨{ phase with window := false, cleared := true }, ?_, ?_⟩⟩
    · simp only [permitProtocol, after, say, Bool.not_false, decide_true, Bool.and_self, if_true]
    · refine reports _ ?_
      simp only [settled]

/-- A future that was just made, of some size. -/
theorem acquireWith_conforms {permits : UInt32} {inner : RuntimeM Value Handle}
    (makes : PermitConforms self (fun later _ => later = { wanted := permits.toNat }) {} inner) :
    PermitConforms self (fun later future => Rest self later (some { future := some future, permit := none }))
      {} (self.acquireWith permits inner) := by
  have ignores := permitProtocol_ignores Value self (rfl : PermitPhase.window {} = false)
  refine (ignores.get ignores.unwound).bind ?_
  rintro _ resource rfl
  refine (startFuture_conforms ignores (draws_unnoticed rfl) fun later _ same => same ▸ makes).bind ?_
  rintro _ future ⟨rfl, unresolved, silent⟩
  refine ⟨rfl, rfl, fun other isFuture _ => ?_, nofun⟩
  obtain rfl := Option.some.inj isFuture
  exact ⟨rfl, rfl, rfl, rfl, fun emitted => nomatch emitted.symm.trans silent⟩

/-- An attempt that succeeds is reported after tokio gave out the permits. -/
theorem tryAcquireWith_conforms {permits : UInt32} {attempt : RuntimeM Value (Except TryAcquireError Handle)}
    (tries : PermitConforms self (fun later result => match result with
      | .ok _ => later = { granted := permits.toNat }
      | .error _ => later = {}) {} attempt) :
    PermitConforms self (fun later result => Rest self later (some (PermitUse.attempted result))) {}
      (self.tryAcquireWith permits attempt) := by
  simp only [ModelAsyncSemaphore.tryAcquireWith, tryGuard, Program.bind_bind]
  refine tries.bind ?_
  intro reached result moved
  cases result with
  | error err =>
    subst moved
    exact ⟨rfl, rfl, nofun, nofun⟩
  | ok inner =>
    subst moved
    have ignores := permitProtocol_ignores Value self
      (rfl : PermitPhase.window { granted := permits.toNat } = false)
    -- Unwinding gives back permits that nothing was reported about.
    have unwinds : PermitConforms self (fun later _ => Ignores (permitProtocol Value self) later)
        { granted := permits.toNat } (tokio (.dropGuard (.semaphorePermits permits) inner) : RuntimeM Value Unit) := by
      refine permit_perform rfl fun _ => ?_
      simp only [after, giveBack]
      split
      · exact ⟨_, rfl, permitProtocol_ignores Value self rfl⟩
      · exact ⟨_, if_pos le_rfl, permitProtocol_ignores Value self rfl⟩
    simp only [Program.bind_bind]
    refine (ignores.get unwinds).bind ?_
    rintro _ resource rfl
    refine (nextWaiter_conforms (draws_unnoticed rfl) unwinds).bind ?_
    rintro _ waiter rfl
    have spoken : say self.initialPermits { granted := permits.toNat, cleared := true }
        (.acquired resource waiter (.semaphorePermits permits)) =
          some { shown := permits.toNat, cleared := true } := by
      simp [say]
    refine (announceCreated_conforms { granted := permits.toNat } rfl spoken).bind ?_
    rintro _ _ rfl
    refine ⟨rfl, rfl, nofun, fun permit isPermit => ?_⟩
    obtain rfl := Option.some.inj isPermit
    exact ⟨rfl, le_rfl, rfl⟩

/-- A poll reports the wait once, or the acquisition after tokio gave out the permits. -/
theorem permitPoll_conforms {future : ModelSemaphoreAcquire} (settled : phase.window = false)
    (adds : phase.adding = 0) (wanted : phase.wanted = future.permits.toNat)
    (sameInitial : future.initialPermits = self.initialPermits)
    (sameFlag : future.createdReported = self.createdReported)
    (cleared : future.requestedEmitted = true → phase.cleared = true) :
    PermitConforms self (fun later result => Rest self later (some (PermitUse.polled result))) phase
      (future.poll : RuntimeM Value _) := by
  simp only [ModelSemaphoreAcquire.poll, Awaiting.poll, Program.bind_bind]
  refine Program.conforms_perform_bind.mpr ⟨permitted settled _, fun answer _ => ?_⟩
  cases answer with
  | pending =>
    refine ⟨phase, rfl, ?_⟩
    cases emitted : future.requestedEmitted with
    | true =>
      refine ⟨settled, adds, fun other isFuture _ => ?_, nofun⟩
      obtain rfl := Option.some.inj isFuture
      exact ⟨rfl, wanted, sameInitial, sameFlag, fun _ => cleared emitted⟩
    | false =>
      have spoken : say self.initialPermits { phase with cleared := true }
          (.requested future.resource future.waiter (.semaphorePermits future.permits)) =
            some { phase with cleared := true } := by
        simp only [say, settled, Bool.not_false, Bool.and_self, if_true]
      simp only [Bool.false_eq_true, if_false, Program.bind_bind, sameFlag, sameInitial]
      refine (announceCreated_conforms phase settled spoken).bind ?_
      rintro _ _ rfl
      refine ⟨settled, adds, fun other isFuture _ => ?_, nofun⟩
      obtain rfl := Option.some.inj isFuture
      exact ⟨rfl, wanted, rfl, rfl, fun _ => rfl⟩
  | ready result =>
    cases result with
    | error err =>
      refine ⟨phase, rfl, settled, adds, fun other isFuture unresolved => ?_, nofun⟩
      obtain rfl := Option.some.inj isFuture
      cases unresolved
    | ok inner =>
      refine ⟨{ phase with granted := phase.granted + phase.wanted }, rfl, ?_⟩
      have spoken : say self.initialPermits
          { phase with granted := phase.granted + phase.wanted, cleared := true }
          (.acquired future.resource future.waiter (.semaphorePermits future.permits)) =
            some { phase with shown := phase.shown + future.permits.toNat, cleared := true } := by
        simp [say, settled, wanted]
      simp only [Program.bind_bind, sameFlag, sameInitial]
      refine (announceCreated_conforms { phase with granted := phase.granted + phase.wanted } settled
        spoken).bind ?_
      rintro _ _ rfl
      refine ⟨settled, adds, fun other isFuture unresolved => ?_, fun permit isPermit => ?_⟩
      · obtain rfl := Option.some.inj isFuture
        cases unresolved
      · obtain rfl := Option.some.inj isPermit
        exact ⟨rfl, Nat.le_add_left _ _, rfl⟩

/-- A future is dropped: a wait that was reported ends, nothing else is said. -/
theorem permitDropFuture_conforms {future : ModelSemaphoreAcquire} (settled : phase.window = false)
    (cleared : future.resolved = false → future.requestedEmitted = true → phase.cleared = true) :
    PermitConforms self (fun later _ => later = phase) phase (future.drop : RuntimeM Value Unit) := by
  have drops : PermitConforms self (fun later _ => later = phase) phase
      (tokio (.dropFuture .acquire future.inner) : RuntimeM Value Unit) :=
    permit_perform settled fun _ => ⟨phase, rfl, rfl⟩
  simp only [ModelSemaphoreAcquire.drop, Awaiting.drop]
  split
  · next waits =>
    obtain ⟨emitted, unresolved⟩ := (Bool.and_eq_true _ _).mp waits
    have spoken : phase.say self.initialPermits (.waiterDropped future.resource future.waiter) = some phase := by
      simp only [say, settled, cleared (by simpa using unresolved) emitted, Bool.not_false, Bool.and_self,
        if_true]
    refine (announce_conforms settled spoken).bind ?_
    rintro _ _ rfl
    exact drops
  · exact drops

/-- The release of a permit is reported before tokio gets it back. -/
theorem permitDrop_conforms {permit : ModelSemaphorePermit} (settled : phase.window = false)
    (shown : permit.permits.toNat ≤ phase.shown) (cleared : phase.cleared = true) :
    PermitConforms self (fun later _ => later.window = false ∧ later.adding = phase.adding) phase
      (permit.drop : RuntimeM Value Unit) := by
  unfold ModelSemaphorePermit.drop
  split
  · have spoken : phase.say self.initialPermits
        (.released permit.resource permit.waiter (.semaphorePermits permit.permits)) =
          some { phase with
            shown := phase.shown - permit.permits.toNat
            returning := phase.returning + permit.permits.toNat } := by
      simp only [say, settled, cleared, Bool.not_false, Bool.and_self, decide_eq_true shown, if_true]
    refine (announce_conforms settled spoken).bind ?_
    rintro _ _ rfl
    refine permit_perform settled fun _ => ⟨_, if_pos (Nat.le_add_left _ _), settled, rfl⟩
  · exact ⟨settled, rfl⟩

/-- A forgotten permit stays out and stays shown. -/
theorem permitForget_conforms {permit : ModelSemaphorePermit} (settled : phase.window = false) :
    PermitConforms self (fun later _ => later = phase) phase (permit.forget : RuntimeM Value Unit) := by
  unfold ModelSemaphorePermit.forget
  split
  · refine (permit_perform settled fun _ => ⟨phase, rfl, rfl⟩ : PermitConforms self
      (fun later _ => later = phase) phase _).bind ?_
    rintro _ _ rfl
    exact rfl
  · exact rfl

/-- `add_permits` forwards, then reports. -/
theorem addPermits_conforms (n : ℕ) :
    PermitConforms self (fun later _ => later.window = false ∧ later.adding = 0) {}
      (self.addPermits n : RuntimeM Value Unit) := by
  refine Program.conforms_perform_bind.mpr ⟨permitted rfl _, fun _ _ => ⟨{ adding := 0 + n }, rfl, ?_⟩⟩
  have ignores := permitProtocol_ignores Value self (rfl : PermitPhase.window { adding := 0 + n } = false)
  refine (ignores.get ignores.unwound).bind ?_
  rintro _ resource rfl
  have spoken : say self.initialPermits { adding := 0 + n, cleared := true } (.permitsAdded resource n) =
      some { cleared := true } := by
    simp [say]
  refine (announceCreated_conforms { adding := 0 + n } rfl spoken).mono ?_
  rintro _ _ rfl
  exact ⟨rfl, rfl⟩

/-- Every operation keeps to the protocol. -/
theorem semaphoreStart_conforms {value : Option PermitUse} {operation : SemaphoreOperation}
    {program : RuntimeM Value (Option PermitUse)} (started : semaphoreStart self value operation = some program)
    (rests : Rest self phase value) : PermitConforms self (Rest self) phase program := by
  cases value with
  | none =>
    obtain rfl : phase = {} := rests
    cases operation with
    | acquire | acquireMany n =>
      obtain rfl := Option.some.inj started
      exact (acquireWith_conforms (permit_perform rfl fun _ => ⟨_, rfl, rfl⟩)).bind fun later future rested => rested
    | tryAcquire =>
      obtain rfl := Option.some.inj started
      refine (tryAcquireWith_conforms (permit_perform rfl fun result => ?_)).bind fun later result rested => rested
      cases result <;> exact ⟨_, rfl, rfl⟩
    | tryAcquireMany n =>
      obtain rfl := Option.some.inj started
      refine (tryAcquireWith_conforms (permit_perform rfl fun result => ?_)).bind fun later result rested => rested
      cases result with
      | ok _ => exact ⟨_, rfl, congrArg (fun granted => ({ granted } : PermitPhase)) (Nat.zero_add _)⟩
      | error _ => exact ⟨_, rfl, rfl⟩
    | addPermits n =>
      obtain rfl := Option.some.inj started
      exact (addPermits_conforms _).bind fun later _ rested => ⟨rested.1, rested.2, nofun, nofun⟩
    | poll | dropFuture | dropPermit | forget => cases started
  | some use =>
    obtain ⟨settled, adds, waits, permits⟩ := rests
    obtain ⟨future, permit⟩ := use
    have absent (other : ModelSemaphoreAcquire) (isFuture : future = some other) (unresolved : other.resolved = false) :
        permit = none := (waits other isFuture unresolved).1
    cases operation with
    | acquire | acquireMany | tryAcquire | tryAcquireMany | addPermits =>
      cases future <;> cases permit <;> cases started
    | poll =>
      cases future with
      | none => cases permit <;> cases started
      | some future =>
        have unfolded : (if future.resolved then none else some do
            let result ← future.poll
            return some (PermitUse.polled result)) = some program := by
          cases permit <;> exact started
        split at unfolded
        · cases unfolded
        · next unresolved =>
          obtain rfl := Option.some.inj unfolded
          obtain ⟨-, wanted, sameInitial, sameFlag, cleared⟩ := waits future rfl (Bool.eq_false_iff.mpr unresolved)
          exact (permitPoll_conforms settled adds wanted sameInitial sameFlag cleared).bind
            fun later result rested => rested
    | dropFuture =>
      cases future with
      | none => cases permit <;> cases started
      | some future =>
        have unfolded : (do
            future.drop
            return some { future := none, permit }) = program := by
          cases permit <;> exact Option.some.inj started
        subst unfolded
        refine (permitDropFuture_conforms settled fun unresolved => (waits future rfl unresolved).2.2.2.2).bind ?_
        rintro _ _ rfl
        exact ⟨settled, adds, nofun, permits⟩
    | dropPermit =>
      cases permit with
      | none => cases future <;> cases started
      | some permit =>
        have unfolded : (do
            permit.drop
            return some { future, permit := none }) = program := by
          cases future <;> exact Option.some.inj started
        subst unfolded
        obtain ⟨-, shown, cleared⟩ := permits permit rfl
        refine (permitDrop_conforms settled shown cleared).bind ?_
        rintro later _ ⟨settled', adds'⟩
        refine ⟨settled', adds'.trans adds, fun other isFuture unresolved => ?_, nofun⟩
        cases absent other isFuture unresolved
    | forget =>
      cases permit with
      | none => cases future <;> cases started
      | some permit =>
        have unfolded : (do
            permit.forget
            return some { future, permit := none }) = program := by
          cases future <;> exact Option.some.inj started
        subst unfolded
        refine (permitForget_conforms settled).bind ?_
        rintro _ _ rfl
        refine ⟨settled, adds, fun other isFuture unresolved => ?_, nofun⟩
        cases absent other isFuture unresolved

end Conformance

/-- The sum of an amount over the events of a trace. -/
def tally (amount : Event → ℕ) (trace : List Event) : ℕ := (trace.map amount).sum

theorem tally_append (amount : Event → ℕ) (trace : List Event) (event : Event) :
    tally amount (trace ++ [event]) = tally amount trace + amount event := by
  simp only [tally, List.map_append, List.map_cons, List.map_nil, List.sum_append, List.sum_cons, List.sum_nil,
    Nat.add_zero]

/-- Permits that an event reports as acquired. -/
def acquiredPermits : Event → ℕ
  | .acquired _ _ (.semaphorePermits n) => n.toNat
  | _ => 0

/-- Permits that an event reports as released. -/
def releasedPermits : Event → ℕ
  | .released _ _ (.semaphorePermits n) => n.toNat
  | _ => 0

/-- Permits that an event reports as added. -/
def addedPermits : Event → ℕ
  | .permitsAdded _ n => n
  | _ => 0

/-- Whether an event reports the creation, as a count. -/
def creations : Event → ℕ
  | .semaphoreCreated _ _ => 1
  | _ => 0

section Invariant

variable [Fintype Process] [DecidableEq Process]

/-- The ledger, tokio's counts and what the uses have under way add up. -/
structure PermitInvariant (semaphore : ModelAsyncSemaphore) (world : World (Permits Process))
    (phases : Process → PermitPhase) : Prop where
  hooked : Hooked world
  wanted : ∀ process, world.inner.wanted process = (phases process).wanted
  out : world.inner.out = ∑ process, (phases process).out
  shown : tally acquiredPermits world.trace = tally releasedPermits world.trace + ∑ process, (phases process).shown
  given : world.inner.given = semaphore.initialPermits + tally addedPermits world.trace +
    ∑ process, (phases process).adding
  bounded : world.inner.out ≤ world.inner.given
  created : tally creations world.trace + ∑ process, (phases process).window.toNat =
    (world.flags semaphore.createdReported).toNat
  cleared : ∀ process, (phases process).cleared = true → world.flags semaphore.createdReported = true
  forwarded : ∀ process, (phases process).adding ≤ world.inner.forwarded process
  createdAs : ∀ resource permits, .semaphoreCreated resource permits ∈ world.trace →
    permits = semaphore.initialPermits

variable {self : ModelAsyncSemaphore} {world next : World (Permits Process)} {phases : Process → PermitPhase}
  {process : Process} {later : PermitPhase}

/-- A step that changes neither the counts nor the ledger. -/
theorem PermitInvariant.same (invariant : PermitInvariant self world phases) (hooked : Hooked next)
    (sameInner : next.inner = world.inner) (sameTrace : next.trace = world.trace)
    (sameFlags : next.flags = world.flags) (sameLater : later = phases process) :
    PermitInvariant self next (Function.update phases process later) := by
  rw [sameLater, Function.update_eq_self]
  refine ⟨hooked, ?_, ?_, ?_, ?_, ?_, ?_, ?_, ?_, ?_⟩
  · simpa only [sameInner] using invariant.wanted
  · simpa only [sameInner] using invariant.out
  · simpa only [sameTrace] using invariant.shown
  · simpa only [sameInner, sameTrace] using invariant.given
  · simpa only [sameInner] using invariant.bounded
  · simpa only [sameTrace, sameFlags] using invariant.created
  · simpa only [sameFlags] using invariant.cleared
  · simpa only [sameInner] using invariant.forwarded
  · simpa only [sameTrace] using invariant.createdAs

/-- A step of one process: what changes in the counts and in the ledger is what changes in its phase. -/
theorem PermitInvariant.move (invariant : PermitInvariant self world phases) (hooked : Hooked next)
    (wanted : ∀ other, next.inner.wanted other = (Function.update phases process later other).wanted)
    (out : next.inner.out + (phases process).out = world.inner.out + later.out)
    (shown : tally acquiredPermits next.trace + tally releasedPermits world.trace + (phases process).shown =
      tally acquiredPermits world.trace + tally releasedPermits next.trace + later.shown)
    (given : next.inner.given + tally addedPermits world.trace + (phases process).adding =
      world.inner.given + tally addedPermits next.trace + later.adding)
    (bounded : next.inner.out ≤ next.inner.given)
    (created : tally creations next.trace + later.window.toNat + (world.flags self.createdReported).toNat =
      tally creations world.trace + (phases process).window.toNat + (next.flags self.createdReported).toNat)
    (flagged : world.flags self.createdReported = true → next.flags self.createdReported = true)
    (cleared : later.cleared = true → next.flags self.createdReported = true)
    (forwarded : ∀ other, world.inner.forwarded other ≤ next.inner.forwarded other)
    (added : later.adding ≤ next.inner.forwarded process)
    (createdAs : ∀ resource permits, .semaphoreCreated resource permits ∈ next.trace →
      permits = self.initialPermits) :
    PermitInvariant self next (Function.update phases process later) := by
  have outs := total_update PermitPhase.out phases process later
  have shows := total_update PermitPhase.shown phases process later
  have adds := total_update PermitPhase.adding phases process later
  have windows := total_update (fun phase : PermitPhase => phase.window.toNat) phases process later
  refine ⟨hooked, wanted, ?_, ?_, ?_, bounded, ?_, fun other isCleared => ?_, fun other => ?_, createdAs⟩
  · have := invariant.out
    omega
  · have := invariant.shown
    omega
  · have := invariant.given
    omega
  · have := invariant.created
    omega
  · rcases eq_or_ne other process with rfl | different
    · rw [Function.update_self] at isCleared
      exact cleared isCleared
    · rw [Function.update_of_ne different] at isCleared
      exact flagged (invariant.cleared other isCleared)
  · rcases eq_or_ne other process with rfl | different
    · rw [Function.update_self]
      exact added
    · rw [Function.update_of_ne different]
      exact (invariant.forwarded other).trans (forwarded other)

theorem PermitInvariant.wants (invariant : PermitInvariant self world phases)
    (same : later.wanted = (phases process).wanted) (other : Process) :
    world.inner.wanted other = (Function.update phases process later other).wanted := by
  rw [update_agrees PermitPhase.wanted same]
  exact invariant.wanted other

/-- The size of a future is known to tokio and to the phase. -/
theorem PermitInvariant.want (invariant : PermitInvariant self world phases) (n : ℕ)
    (hooked : Hooked { world with
      inner := { world.inner with wanted := Function.update world.inner.wanted process n } }) :
    PermitInvariant self
      { world with inner := { world.inner with wanted := Function.update world.inner.wanted process n } }
      (Function.update phases process { phases process with wanted := n }) := by
  refine invariant.move hooked (fun other => ?_) rfl rfl rfl invariant.bounded rfl id
    (invariant.cleared process) (fun _ => le_rfl) (invariant.forwarded process) invariant.createdAs
  rcases eq_or_ne other process with rfl | different
  · simp only [Function.update_self]
  · simp only [Function.update_of_ne different]
    exact invariant.wanted other

/-- Tokio gives out permits that it has. -/
theorem PermitInvariant.grant (invariant : PermitInvariant self world phases) {n : ℕ} {permits : Permits Process}
    (grants : world.inner.grant n = some permits) (hooked : Hooked { world with inner := permits }) :
    PermitInvariant self { world with inner := permits }
      (Function.update phases process { phases process with granted := (phases process).granted + n }) := by
  obtain ⟨room, same⟩ := Option.ite_none_right_eq_some.mp grants
  obtain rfl := Option.some.inj same
  refine invariant.move hooked (invariant.wants rfl) ?_ rfl rfl room rfl id (invariant.cleared process)
    (fun _ => le_rfl) (invariant.forwarded process) invariant.createdAs
  simp only [PermitPhase.out]
  omega

theorem giveBack_less {phase : PermitPhase} {n : ℕ} (moved : phase.giveBack n = some later) :
    later.out + n = phase.out ∧
      { phase with granted := later.granted, returning := later.returning } = later := by
  obtain ⟨wanted, window, cleared, granted, shown, returning, adding⟩ := phase
  simp only [PermitPhase.giveBack] at moved
  split at moved
  · obtain rfl := Option.some.inj moved
    refine ⟨?_, rfl⟩
    simp only [PermitPhase.out]
    omega
  · split at moved
    · obtain rfl := Option.some.inj moved
      refine ⟨?_, rfl⟩
      simp only [PermitPhase.out]
      omega
    · cases moved

/-- Tokio takes permits back. -/
theorem PermitInvariant.giveBack (invariant : PermitInvariant self world phases) {n : ℕ}
    (moved : (phases process).giveBack n = some later)
    (hooked : Hooked { world with inner := { world.inner with out := world.inner.out - n } }) :
    PermitInvariant self { world with inner := { world.inner with out := world.inner.out - n } }
      (Function.update phases process later) := by
  have own : (phases process).out ≤ world.inner.out := by
    rw [invariant.out]
    exact Finset.single_le_sum (f := fun process => (phases process).out) (fun _ _ => Nat.zero_le _)
      (Finset.mem_univ process)
  obtain ⟨less, same⟩ := giveBack_less moved
  have outs : world.inner.out - n + (phases process).out = world.inner.out + later.out := by omega
  rw [← same] at outs ⊢
  exact invariant.move hooked (invariant.wants rfl) outs rfl rfl
    ((Nat.sub_le _ _).trans invariant.bounded) rfl id (invariant.cleared process) (fun _ => le_rfl)
    (invariant.forwarded process) invariant.createdAs

/-- Tokio is given permits. -/
theorem PermitInvariant.add (invariant : PermitInvariant self world phases) (n : ℕ)
    (hooked : Hooked { world with inner := { world.inner with
      given := world.inner.given + n
      forwarded := Function.update world.inner.forwarded process (world.inner.forwarded process + n) } }) :
    PermitInvariant self { world with inner := { world.inner with
      given := world.inner.given + n
      forwarded := Function.update world.inner.forwarded process (world.inner.forwarded process + n) } }
      (Function.update phases process { phases process with adding := (phases process).adding + n }) := by
  refine invariant.move hooked (invariant.wants rfl) rfl rfl ?_
    (invariant.bounded.trans (Nat.le_add_right _ _)) rfl id (invariant.cleared process) (fun other => ?_) ?_
    invariant.createdAs
  · dsimp only
    omega
  · rcases eq_or_ne other process with rfl | different
    · simp only [Function.update_self, Nat.le_add_right]
    · simp only [Function.update_of_ne different, le_refl]
  · simp only [Function.update_self]
    exact Nat.add_le_add_right (invariant.forwarded process) n

/-- Every call of tokio that the protocol permits. -/
theorem PermitInvariant.tokio (invariant : PermitInvariant self world phases) {call : Tokio Value} {choice : Bool}
    {reply : call.Reply} {permits : Permits Process}
    (answers : countingSemaphore process world.inner call choice = some (reply, permits))
    (moved : (phases process).after self (.tokio call) reply = some later)
    (hooked : Hooked { world with inner := permits }) :
    PermitInvariant self { world with inner := permits } (Function.update phases process later) := by
  cases call
  case acquire =>
    cases answers
    obtain rfl := Option.some.inj moved
    exact invariant.want 1 hooked
  case acquireMany semaphore n =>
    cases answers
    obtain rfl := Option.some.inj moved
    exact invariant.want n.toNat hooked
  case poll kind future =>
    cases kind
    case acquire =>
      cases choice with
      | false =>
        cases answers
        exact invariant.same hooked rfl rfl rfl (Option.some.inj moved).symm
      | true =>
        obtain ⟨granted, grants, same⟩ := Option.map_eq_some_iff.mp answers
        cases same
        obtain rfl := Option.some.inj moved
        rw [invariant.wanted process] at grants
        exact invariant.grant grants hooked
    all_goals cases answers
  case tryAcquire =>
    cases choice with
    | false =>
      cases answers
      exact invariant.same hooked rfl rfl rfl (Option.some.inj moved).symm
    | true =>
      obtain ⟨granted, grants, same⟩ := Option.map_eq_some_iff.mp answers
      cases same
      obtain rfl := Option.some.inj moved
      exact invariant.grant grants hooked
  case tryAcquireMany semaphore n =>
    cases choice with
    | false =>
      cases answers
      exact invariant.same hooked rfl rfl rfl (Option.some.inj moved).symm
    | true =>
      obtain ⟨granted, grants, same⟩ := Option.map_eq_some_iff.mp answers
      cases same
      obtain rfl := Option.some.inj moved
      exact invariant.grant grants hooked
  case dropGuard kind guard =>
    cases kind
    case semaphorePermits n =>
      cases answers
      exact invariant.giveBack moved hooked
    all_goals cases answers
  case forgetPermit | dropFuture =>
    cases answers
    exact invariant.same hooked rfl rfl rfl (Option.some.inj moved).symm
  case addPermits semaphore n =>
    cases answers
    obtain rfl := Option.some.inj moved
    exact invariant.add n hooked
  all_goals cases answers


/-- The first swap opens the window, and every swap clears the way. -/
theorem PermitInvariant.swap (invariant : PermitInvariant self world phases)
    (settled : (phases process).window = false)
    (hooked : Hooked { world with flags := Function.update world.flags self.createdReported true }) :
    PermitInvariant self { world with flags := Function.update world.flags self.createdReported true }
      (Function.update phases process
        { phases process with window := !world.flags self.createdReported, cleared := true }) := by
  refine invariant.move hooked (invariant.wants rfl) rfl rfl rfl invariant.bounded ?_
    (fun _ => Function.update_self ..) (fun _ => Function.update_self ..) (fun _ => le_rfl)
    (invariant.forwarded process) invariant.createdAs
  simp only [settled, Function.update_self]
  cases world.flags self.createdReported <;> rfl

/-- Every report that the protocol permits. -/
theorem PermitInvariant.say (invariant : PermitInvariant self world phases) {event : Event}
    (spoken : (phases process).say self.initialPermits event = some later)
    (hooked : Hooked { world with trace := world.trace ++ [event] }) :
    PermitInvariant self { world with trace := world.trace ++ [event] } (Function.update phases process later) := by
  have cleared := invariant.cleared process
  have forwarded := invariant.forwarded process
  have earlier : (∀ resource permits, event = .semaphoreCreated resource permits → permits = self.initialPermits) →
      ∀ resource permits, .semaphoreCreated resource permits ∈ world.trace ++ [event] →
        permits = self.initialPermits := by
    intro last resource permits member
    rcases List.mem_append.mp member with before | isLast
    · exact invariant.createdAs resource permits before
    · exact last resource permits (List.mem_singleton.mp isLast).symm
  cases event
  case semaphoreCreated resource permits =>
    obtain ⟨conditions, moved⟩ := Option.ite_none_right_eq_some.mp spoken
    obtain rfl := Option.some.inj moved
    simp only [Bool.and_eq_true, decide_eq_true_eq] at conditions
    refine invariant.move hooked (invariant.wants rfl) rfl ?_ ?_ invariant.bounded ?_ id cleared
      (fun _ => le_rfl) forwarded (earlier ?_)
    · simp only [tally_append, acquiredPermits, releasedPermits, Nat.add_zero]
    · simp only [tally_append, addedPermits, Nat.add_zero]
    · simp only [tally_append, creations, conditions.1, Bool.toNat_true, Bool.toNat_false]
    · intro resource' permits' same
      cases same
      exact conditions.2
  case requested | waiterDropped =>
    obtain ⟨-, moved⟩ := Option.ite_none_right_eq_some.mp spoken
    obtain rfl := Option.some.inj moved
    refine invariant.move hooked (invariant.wants rfl) rfl ?_ ?_ invariant.bounded ?_ id cleared
      (fun _ => le_rfl) forwarded (earlier nofun)
    · simp only [tally_append, acquiredPermits, releasedPermits, Nat.add_zero]
    · simp only [tally_append, addedPermits, Nat.add_zero]
    · simp only [tally_append, creations, Nat.add_zero]
  case acquired resource waiter kind =>
    cases kind
    case semaphorePermits n =>
      obtain ⟨conditions, moved⟩ := Option.ite_none_right_eq_some.mp spoken
      obtain rfl := Option.some.inj moved
      simp only [Bool.and_eq_true, decide_eq_true_eq] at conditions
      refine invariant.move hooked (invariant.wants rfl) ?_ ?_ ?_ invariant.bounded ?_ id cleared
        (fun _ => le_rfl) forwarded (earlier nofun)
      · simp only [PermitPhase.out]
        omega
      · simp only [tally_append, acquiredPermits, releasedPermits]
        omega
      · simp only [tally_append, addedPermits, Nat.add_zero]
      · simp only [tally_append, creations, Nat.add_zero]
    all_goals cases spoken
  case released resource waiter kind =>
    cases kind
    case semaphorePermits n =>
      obtain ⟨conditions, moved⟩ := Option.ite_none_right_eq_some.mp spoken
      obtain rfl := Option.some.inj moved
      simp only [Bool.and_eq_true, decide_eq_true_eq] at conditions
      refine invariant.move hooked (invariant.wants rfl) ?_ ?_ ?_ invariant.bounded ?_ id cleared
        (fun _ => le_rfl) forwarded (earlier nofun)
      · simp only [PermitPhase.out]
        omega
      · simp only [tally_append, acquiredPermits, releasedPermits]
        omega
      · simp only [tally_append, addedPermits, Nat.add_zero]
      · simp only [tally_append, creations, Nat.add_zero]
    all_goals cases spoken
  case permitsAdded resource n =>
    obtain ⟨conditions, moved⟩ := Option.ite_none_right_eq_some.mp spoken
    obtain rfl := Option.some.inj moved
    simp only [Bool.and_eq_true, decide_eq_true_eq] at conditions
    refine invariant.move hooked (invariant.wants rfl) rfl ?_ ?_ invariant.bounded ?_ id cleared
      (fun _ => le_rfl) ((Nat.sub_le _ _).trans forwarded) (earlier nofun)
    · simp only [tally_append, acquiredPermits, releasedPermits, Nat.add_zero]
    · simp only [tally_append, addedPermits]
      omega
    · simp only [tally_append, creations, Nat.add_zero]
  all_goals cases spoken

/-- Every effect that the protocol permits keeps the invariant. -/
theorem permit_answers (invariant : PermitInvariant self world phases) {effect : Effect Value} {choice : Bool}
    {reply : effect.Reply} (answered : world.answer (countingSemaphore process) effect choice = some (reply, next))
    (permits : (permitProtocol Value self).permits (phases process) effect)
    (moved : (phases process).after self effect reply = some later) :
    PermitInvariant self next (Function.update phases process later) := by
  have hooked := (invariant.hooked.answer answered).2
  cases effect with
  | tokio call =>
    obtain ⟨⟨reply', inner⟩, answers, same⟩ := Option.map_eq_some_iff.mp answered
    cases same
    exact invariant.tokio answers moved hooked
  | swapFlag flag =>
    cases answered
    obtain ⟨rfl, swapped⟩ := Option.ite_none_right_eq_some.mp moved
    obtain rfl := Option.some.inj swapped
    refine invariant.swap ?_ hooked
    cases isWindow : (phases process).window with
    | false => rfl
    | true =>
      obtain ⟨_, _, absurd⟩ := permits isWindow
      cases absurd
  | report event =>
    cases answered
    exact invariant.say moved hooked
  | compareExchange atomic expected new =>
    simp only [World.answer] at answered
    split at answered
    · cases answered
      exact invariant.same hooked rfl rfl rfl (Option.some.inj moved).symm
    · cases answered
      exact invariant.same hooked rfl rfl rfl (Option.some.inj moved).symm
  | load | nextResource | nextWaiter | hook =>
    cases answered
    exact invariant.same hooked rfl rfl rfl (Option.some.inj moved).symm
  | newAtomic | fetchAdd | newFlag => cases moved
  | panic => cases answered

end Invariant

section Runs

variable [DecidableEq Process]

/-- The semaphore before its first use, with the hook installed. -/
structure SemaphoreStart (semaphore : ModelAsyncSemaphore) (world : World (Permits Process)) : Prop where
  hooked : Hooked world
  silent : world.trace = []
  fresh : world.inner = { given := semaphore.initialPermits }
  unreported : world.flags semaphore.createdReported = false

/-- A state of the semaphore that some run reaches. -/
def SemaphoreReaches (Value : Type) (semaphore : ModelAsyncSemaphore) (world : World (Permits Process))
    (final : System.Config (Effect Value) Effect.Reply Process (Option PermitUse) (World (Permits Process))) :
    Prop :=
  ∃ actions, run? (semaphoreSystem Value semaphore).step ⟨world, fun _ => .done none⟩ actions = some final

/-- A process that has won the swap and has to report the creation next. -/
def ReportsCreationNext {α : Type} : RuntimeM Value α → Prop
  | .call (.report (.semaphoreCreated _ _)) _ => True
  | _ => False

/-- The permits that a call of `add_permits` has forwarded, while it has not returned. -/
def inFlight {α : Type} (program : RuntimeM Value α) (forwarded : ℕ) : ℕ :=
  match program with
  | .done _ => 0
  | .call _ _ => forwarded

variable [Fintype Process] {self : ModelAsyncSemaphore} {world : World (Permits Process)}
  {final next : System.Config (Effect Value) Effect.Reply Process (Option PermitUse) (World (Permits Process))}

/-- The invariant holds in every reachable state. -/
theorem permit_invariant_of_run (start : SemaphoreStart self world)
    (reached : SemaphoreReaches Value self world final) :
    ∃ phases, System.Phased (permitProtocol Value self) (Rest self) (PermitInvariant self) final phases := by
  obtain ⟨actions, reached⟩ := reached
  have initially : System.Phased (permitProtocol Value self) (Rest self) (PermitInvariant self)
      (⟨world, fun _ => .done none⟩ : System.Config (Effect Value) Effect.Reply Process _ _)
      (fun _ => {}) := by
    refine ⟨⟨start.hooked, ?_, ?_, ?_, ?_, ?_, ?_, nofun, ?_, ?_⟩, fun _ => rfl⟩
    · simp only [start.fresh, implies_true]
    · simp only [start.fresh, PermitPhase.out, Nat.add_zero, Finset.sum_const_zero]
    · simp only [start.silent, tally, List.map_nil, List.sum_nil, Finset.sum_const_zero, Nat.add_zero]
    · simp only [start.fresh, start.silent, tally, List.map_nil, List.sum_nil, Finset.sum_const_zero, Nat.add_zero]
    · simp only [start.fresh, Nat.zero_le]
    · simp only [start.silent, start.unreported, tally, List.map_nil, List.sum_nil, Bool.toNat_false,
        Finset.sum_const_zero, Nat.add_zero]
    · simp only [Nat.zero_le, implies_true]
    · simp only [start.silent, List.not_mem_nil, false_implies, implies_true]
  exact System.phases_of_run
    (fun _ _ _ _ _ started rests => semaphoreStart_conforms started rests)
    (fun _ _ _ _ _ _ _ invariant answered =>
      ⟨(invariant.hooked.answer answered).1, fun _ permits moved => permit_answers invariant answered permits moved⟩)
    initially reached

omit [DecidableEq Process] in
/-- The creation is reported at most once. -/
theorem creation_at_most_once {phases : Process → PermitPhase} (invariant : PermitInvariant self world phases) :
    tally creations world.trace ≤ 1 := by
  have created := invariant.created
  have flag : (world.flags self.createdReported).toNat ≤ 1 := Bool.toNat_le _
  omega

/-- Between two operations nothing is under way. -/
theorem rest_settled {phase : PermitPhase} {value : Option PermitUse} (rests : Rest self phase value) :
    phase.window = false ∧ phase.adding = 0 := by
  cases value with
  | none =>
    subst rests
    exact ⟨rfl, rfl⟩
  | some use => exact ⟨rests.1, rests.2.1⟩

/-- Whoever reports anything but the creation has passed `hook_with_created`. -/
theorem say_cleared {initial : ℕ} {phase later : PermitPhase} {event : Event}
    (spoken : phase.say initial event = some later) (other : creations event = 0) : phase.cleared = true := by
  cases event
  case semaphoreCreated => cases other
  case requested | waiterDropped | permitsAdded =>
    obtain ⟨conditions, -⟩ := Option.ite_none_right_eq_some.mp spoken
    simp only [Bool.and_eq_true] at conditions
    simp only [conditions]
  case acquired resource waiter kind =>
    cases kind
    case semaphorePermits =>
      obtain ⟨conditions, -⟩ := Option.ite_none_right_eq_some.mp spoken
      simp only [Bool.and_eq_true] at conditions
      simp only [conditions]
    all_goals cases spoken
  case released resource waiter kind =>
    cases kind
    case semaphorePermits =>
      obtain ⟨conditions, -⟩ := Option.ite_none_right_eq_some.mp spoken
      simp only [Bool.and_eq_true] at conditions
      simp only [conditions]
    all_goals cases spoken
  all_goals cases spoken

omit [DecidableEq Process] in
/-- What is under way in add_permits calls is at most what they forwarded and have not returned from. -/
theorem adding_le_inFlight {phases : Process → PermitPhase}
    (phased : System.Phased (permitProtocol Value self) (Rest self) (PermitInvariant self) final phases)
    (process : Process) :
    (phases process).adding ≤ inFlight (final.program process) (final.shared.inner.forwarded process) := by
  have conforms := phased.2 process
  cases running : final.program process with
  | call effect rest => exact phased.1.forwarded process
  | done value =>
    rw [running] at conforms
    exact (rest_settled conforms).2.le

omit [DecidableEq Process] in
/-- The ledger never shows more permits out than there are, with those that are being added. -/
theorem ledger_bounded {phases : Process → PermitPhase}
    (phased : System.Phased (permitProtocol Value self) (Rest self) (PermitInvariant self) final phases) :
    tally acquiredPermits final.shared.trace ≤ tally releasedPermits final.shared.trace + self.initialPermits +
      tally addedPermits final.shared.trace +
      ∑ process, inFlight (final.program process) (final.shared.inner.forwarded process) := by
  have invariant := phased.1
  have shown : ∑ process, (phases process).shown ≤ ∑ process, (phases process).out :=
    Finset.sum_le_sum fun process _ => by
      simp only [PermitPhase.out]
      omega
  have adding := Finset.sum_le_sum fun process (_ : process ∈ Finset.univ) => adding_le_inFlight phased process
  have out := invariant.out
  have given := invariant.given
  have bounded := invariant.bounded
  have ledger := invariant.shown
  omega

omit [DecidableEq Process] in
/-- Outside the window, whoever reports has the creation reported before it. -/
theorem creation_before_report {phases : Process → PermitPhase}
    (phased : System.Phased (permitProtocol Value self) (Rest self) (PermitInvariant self) final phases)
    (nobody : ∀ process, ¬ ReportsCreationNext (final.program process)) {process : Process} {event : Event}
    {rest : Unit → RuntimeM Value (Option PermitUse)} (running : final.program process = .call (.report event) rest)
    (other : creations event = 0) : tally creations final.shared.trace = 1 := by
  have settled : ∀ process, (phases process).window = false := by
    intro process
    cases isWindow : (phases process).window with
    | false => rfl
    | true =>
      have conforms := phased.2 process
      cases running : final.program process with
      | done value =>
        rw [running] at conforms
        exact isWindow.symm.trans (rest_settled conforms).1
      | call effect rest =>
        rw [running] at conforms
        obtain ⟨resource, permits, rfl⟩ := conforms.1 isWindow
        refine absurd ?_ (nobody process)
        rw [running]
        trivial
  have conforms := phased.2 process
  rw [running] at conforms
  obtain ⟨later, moved, -⟩ := conforms.2 () trivial
  have cleared := say_cleared moved other
  have created := phased.1.created
  rw [phased.1.cleared process cleared] at created
  simpa only [settled, Bool.toNat_false, Finset.sum_const_zero, Nat.add_zero, Bool.toNat_true] using created

/-- **The permit ledger, as it is kept.** In every reachable state the creation is reported at most once, and
with the semaphore's permits; the permits shown out are at most those created, added and being added; and
whatever else is reported while nobody has the creation to report comes after it. -/
theorem semaphore_ledger (start : SemaphoreStart self world)
    (reached : SemaphoreReaches Value self world final) :
    tally creations final.shared.trace ≤ 1 ∧
    (∀ resource permits, .semaphoreCreated resource permits ∈ final.shared.trace →
      permits = self.initialPermits) ∧
    tally acquiredPermits final.shared.trace ≤ tally releasedPermits final.shared.trace + self.initialPermits +
      tally addedPermits final.shared.trace +
      ∑ process, inFlight (final.program process) (final.shared.inner.forwarded process) ∧
    ∀ action next event, (semaphoreSystem Value self).step final action = some next →
      next.shared.trace = final.shared.trace ++ [event] → creations event = 0 →
      (∀ process, ¬ ReportsCreationNext (final.program process)) → tally creations final.shared.trace = 1 := by
  obtain ⟨phases, phased⟩ := permit_invariant_of_run start reached
  refine ⟨creation_at_most_once phased.1, phased.1.createdAs, ledger_bounded phased, ?_⟩
  intro action next event stepped appended other nobody
  obtain ⟨_, _, _, _, -, -, -, rfl⟩ | ⟨process, choice, effect, rest, reply, shared, -, running, answered, rfl⟩ :=
    System.step_cases stepped
  · simp at appended
  · obtain rfl := answer_reports answered appended
    exact creation_before_report phased nobody running other

/-- One permit is acquired and dropped while the other process adds one. -/
theorem semaphore_ledger_shared :
    ∃ final, SemaphoreReaches Unit ⟨0, 0, 1, 0⟩ ({ inner := { given := 1 } } : World (Permits Bool)) final ∧
      final.shared.trace = [.semaphoreCreated 1 1, .acquired 1 1 (.semaphorePermits 1), .permitsAdded 1 1,
        .released 1 1 (.semaphorePermits 1)] ∧
      tally acquiredPermits final.shared.trace ≤ tally releasedPermits final.shared.trace + 1 +
        tally addedPermits final.shared.trace +
        ∑ process, inFlight (final.program process) (final.shared.inner.forwarded process) := by
  have reached : SemaphoreReaches Unit ⟨0, 0, 1, 0⟩ ({ inner := { given := 1 } } : World (Permits Bool)) _ :=
    ⟨List.flatten [[.start false .tryAcquire], List.replicate 9 (.advance false true), [.start true (.addPermits 1)],
      List.replicate 5 (.advance true true), [.start false .dropPermit], List.replicate 3 (.advance false true)], rfl⟩
  refine ⟨_, reached, rfl, ?_⟩
  exact (semaphore_ledger ⟨⟨rfl, by decide⟩, rfl, rfl, rfl⟩ reached).2.2.1

/-- Every event but the creation comes after exactly one report of the creation. -/
def CreatedFirst (trace : List Event) : Prop :=
  ∀ before event after, trace = before ++ event :: after → creations event = 0 → tally creations before = 1

/-- Two events can be overtaken: an acquisition is reported before the creation when another process has won
the swap and not reported yet, and before the permits that made it possible when `add_permits` has forwarded
and not reported yet. -/
theorem semaphore_ledger_overtaken :
    (∃ final, SemaphoreReaches Unit ⟨0, 0, 2, 0⟩ ({ inner := { given := 2 } } : World (Permits Bool)) final ∧
      ¬ CreatedFirst final.shared.trace) ∧
    ∃ final, SemaphoreReaches Unit ⟨0, 0, 0, 0⟩ ({ inner := { given := 0 } } : World (Permits Bool)) final ∧
      ¬ tally acquiredPermits final.shared.trace ≤
        tally releasedPermits final.shared.trace + 0 + tally addedPermits final.shared.trace := by
  refine ⟨?_, ?_⟩
  · have reached : SemaphoreReaches Unit ⟨0, 0, 2, 0⟩ ({ inner := { given := 2 } } : World (Permits Bool)) _ :=
      ⟨List.flatten [[.start false .tryAcquire], List.replicate 7 (.advance false true), [.start true .tryAcquire],
        List.replicate 6 (.advance true true)], rfl⟩
    refine ⟨_, reached, fun first => ?_⟩
    have preceded := first [] (.acquired 1 2 (.semaphorePermits 1)) [] rfl rfl
    cases preceded
  · have reached : SemaphoreReaches Unit ⟨0, 0, 0, 0⟩ ({ inner := { given := 0 } } : World (Permits Bool)) _ :=
      ⟨List.flatten [[.start false (.addPermits 1), .advance false true, .start true .tryAcquire],
        List.replicate 9 (.advance true true)], rfl⟩
    refine ⟨_, reached, ?_⟩
    have trace : tally acquiredPermits [.semaphoreCreated 1 0, .acquired 1 1 (.semaphorePermits 1)] = 1 := rfl
    intro bounded
    exact absurd (trace.symm.le.trans bounded) (by decide)

end Runs

end Laplace.Soundness
