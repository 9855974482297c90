import Laplace.Model.HookChanges
import Laplace.Model.LockRuns

/-! # Hooks that are exchanged while guards and waits are alive

A release and the drop of an announced wait go to whatever hook is installed then. A hook is told of an end without
its beginning exactly where a guard, a permit or an announced future is dropped under another hook than the one
that was told of it. With no hook installed, nothing is reported.
-/

namespace Laplace.Soundness.HookHandovers

open Laplace.Machine Laplace.Model Laplace.Model.Runtime

variable {Value Hook Inner Choice Process : Type}

/-- The first event began what the second one ends. -/
def endOf : Event → Event → Bool
  | .acquired resource waiter kind, .released resource' waiter' kind' =>
      resource = resource' && waiter = waiter' && kind = kind'
  | .requested resource waiter _, .waiterDropped resource' waiter'
  | .notifyWaitRequested resource waiter, .notifyWaiterDropped resource' waiter'
  | .channelOpRequested resource waiter _, .channelOpDropped resource' waiter'
  | .broadcastOpRequested resource waiter _ _, .broadcastOpDropped resource' waiter' =>
      resource = resource' && waiter = waiter'
  | _, _ => false

/-- What the hook was told that a process found when it looked at a slot. -/
inductive Heard where
  /-- No hook was found. -/
  | nobody
  | nothing
  | told (event : Event)
deriving DecidableEq

/-- What came of the last time that a process looked at a slot, and of the time before. -/
structure Phase where
  last : Heard := .nobody
  before : Heard := .nobody

namespace Phase

def look (phase : Phase) (installed : Bool) : Phase where
  last := if installed then .nothing else .nobody
  before := phase.last

def tell (phase : Phase) (event : Event) : Phase :=
  if begins event then { phase with last := .told event } else phase

def after (phase : Phase) : (effect : Effect Value) → effect.Reply → Option Phase
  | .hook _, installed => some (phase.look installed)
  | .report event, _ => some (phase.tell event)
  | _, _ => some phase

/-- The hook of that time was told of the beginning, or there was none. -/
def Knows (heard : Heard) (ending : Event) : Prop :=
  heard = .nobody ∨ ∃ beginning, heard = .told beginning ∧ endOf beginning ending = true

/-- A report goes to a hook that was found; an end was begun when the process looked before. -/
def permits (phase : Phase) : Effect Value → Prop
  | .report event => phase.last ≠ .nobody ∧ (ends event = true → Knows phase.before event)
  | _ => True

end Phase

open Phase

def protocol (Value : Type) : Protocol (Effect Value) Effect.Reply Phase where
  permits := Phase.permits
  possible _ _ := True
  after := Phase.after

abbrev HookConforms {α : Type} (rest : Phase → α → Prop) (phase : Phase) (program : RuntimeM Value α) : Prop :=
  program.Conforms (protocol Value) rest phase

section Programs

variable {α β : Type} {phase : Phase}

/-- A program that neither looks at a slot nor reports. -/
def Unheard (program : RuntimeM Value α) : Prop :=
  ∀ phase, HookConforms (fun later _ => later = phase) phase program

theorem Unheard.bind {program : RuntimeM Value α} {rest : α → RuntimeM Value β} (first : Unheard program)
    (onward : ∀ value, Unheard (rest value)) : Unheard (program >>= rest) := by
  intro phase
  refine (first phase).bind ?_
  rintro _ value rfl
  exact onward value _

/-- After an unheard part, a program goes on in the same phase. -/
theorem Unheard.then {program : RuntimeM Value α} {next : α → RuntimeM Value β} {rest : Phase → β → Prop}
    (first : Unheard program)
    (onward : ∀ value, HookConforms rest phase (next value)) : HookConforms rest phase (program >>= next) := by
  refine (first phase).bind ?_
  rintro _ value rfl
  exact onward value

theorem unheard_pure (value : α) : Unheard (pure value : RuntimeM Value α) := fun _ => rfl

theorem unheard_panic (message : String) : Unheard (panic message : RuntimeM Value α) := fun _ => ⟨trivial, nofun⟩

theorem unheard_tokio (call : Tokio Value) : Unheard (tokio call) :=
    fun phase => ⟨trivial, fun _ _ => ⟨phase, rfl, rfl⟩⟩

theorem unheard_nextResource {unwind : RuntimeM Value Unit} (unwinds : Unheard unwind) :
    Unheard (nextAsyncLockResourceId unwind) := by
  intro phase
  refine ⟨trivial, fun drawn _ => ⟨phase, rfl, ?_⟩⟩
  cases drawn with
  | some id => rfl
  | none => exact unwinds.bind (fun _ => unheard_panic _) phase

theorem unheard_nextWaiter {unwind : RuntimeM Value Unit} (unwinds : Unheard unwind) :
    Unheard (nextAsyncLockWaiterId unwind) := by
  intro phase
  refine ⟨trivial, fun drawn _ => ⟨phase, rfl, ?_⟩⟩
  cases drawn with
  | some id => rfl
  | none => exact unwinds.bind (fun _ => unheard_panic _) phase

theorem unheard_get (resource : AsyncResourceId) {unwind : RuntimeM Value Unit} (unwinds : Unheard unwind) :
    Unheard (resource.get unwind) := by
  intro phase
  have loads : Unheard (perform (.load resource) : RuntimeM Value UInt64) :=
    fun phase => ⟨trivial, fun _ _ => ⟨phase, rfl, rfl⟩⟩
  refine loads.then fun current => ?_
  split
  · rfl
  · refine (unheard_nextResource unwinds).then fun allocated => ?_
    refine ⟨trivial, fun result _ => ⟨phase, rfl, ?_⟩⟩
    cases result <;> rfl

/-- A future that was just made has announced nothing. -/
def Fresh (future : Awaiting) : Prop := future.requestedEmitted = false ∧ future.resolved = false

theorem start_fresh (resource : UInt64) {inner : RuntimeM Value Handle} (makes : Unheard inner) :
    HookConforms (fun _ future => Fresh future) phase (Awaiting.start resource inner) := by
  refine (unheard_nextWaiter (unheard_pure ())).then fun waiter => ?_
  exact makes.then fun _ => ⟨rfl, rfl⟩

/-- A report through a slot: the hook that is found is told, unless there is none. -/
theorem withHook_told {slot : HookSlot} {event : Event} (begun : ends event = true → Knows phase.last event) :
    HookConforms (fun later _ => begins event = true → later.last = .nobody ∨ later.last = .told event) phase
      (withHook slot (report event) : RuntimeM Value Unit) := by
  refine ⟨trivial, fun installed _ => ⟨phase.look installed, rfl, ?_⟩⟩
  cases installed with
  | false => exact fun _ => .inl rfl
  | true =>
    refine ⟨⟨nofun, begun⟩, fun _ _ => ⟨_, rfl, fun isBeginning => .inr ?_⟩⟩
    rw [Phase.tell, if_pos isBeginning]

/-- A way to report an event that ends nothing. -/
def Announces (announce : Event → RuntimeM Value Unit) : Prop :=
  ∀ phase event, ends event = false → HookConforms
    (fun later _ => begins event = true → later.last = .nobody ∨ later.last = .told event) phase (announce event)

theorem withHook_announces (slot : HookSlot) :
    Announces (fun event => withHook slot (report event) : Event → RuntimeM Value Unit) := by
  intro phase event endless
  apply withHook_told
  rw [endless]
  nofun

theorem announceCreated_announces (createdReported : Handle) (initialPermits : ℕ) (resource : UInt64) :
    Announces (announceCreated createdReported initialPermits resource : Event → RuntimeM Value Unit) := by
  intro phase event endless
  refine ⟨trivial, fun installed _ => ⟨phase.look installed, rfl, ?_⟩⟩
  cases installed with
  | false => exact fun _ => .inl rfl
  | true =>
    have tells : HookConforms (fun later _ => begins event = true → later.last = .nobody ∨ later.last = .told event)
        (phase.look true) (report event : RuntimeM Value Unit) := by
      refine ⟨⟨nofun, fun isEnd => ?_⟩, fun _ _ => ⟨_, rfl, fun isBeginning => .inr ?_⟩⟩
      · rw [endless] at isEnd
        cases isEnd
      · rw [Phase.tell, if_pos isBeginning]
    refine ⟨trivial, fun was _ => ⟨phase.look true, rfl, ?_⟩⟩
    cases was with
    | true => exact tells
    | false => exact ⟨⟨nofun, nofun⟩, fun _ _ => ⟨phase.look true, rfl, tells⟩⟩

end Programs

section Futures

variable {phase : Phase}

/-- The drop of a future, if its wait was announced. -/
def endingOf : Future → Event
  | .lock future | .read future | .write future => .waiterDropped future.resource future.waiter
  | .acquire future => .waiterDropped future.resource future.waiter
  | .notified future => .notifyWaiterDropped future.resource future.waiter
  | .send future | .recv future | .changed future | .oneshot future => .channelOpDropped future.resource future.waiter
  | .broadcastRecv future => .broadcastOpDropped future.resource future.waiter

/-- The release of a guard or a permit; a permit that was forgotten has none. -/
def releaseOf : Kept → Option Event
  | .mutexGuard guard => some (.released guard.resource guard.waiter .mutex)
  | .readGuard guard => some (.released guard.resource guard.waiter .rwRead)
  | .writeGuard guard => some (.released guard.resource guard.waiter .rwWrite)
  | .permit held =>
      held.inner.map fun _ => .released held.resource held.waiter (.semaphorePermits held.permits)

/-- The hook that was found last knows of the guard. -/
def KeptRest (phase : Phase) (kept : Kept) : Prop := ∀ release, releaseOf kept = some release →
    Knows phase.last release

/-- The hook that was found last knows of the wait that a future announced. -/
def Announced (phase : Phase) (ending : Event) (future : Awaiting) : Prop :=
  future.requestedEmitted = true → future.resolved = false → Knows phase.last ending

/-- The futures that report nothing when they are dropped after they were ready. -/
def isBoxed : Future → Bool
  | .oneshot _ => false
  | _ => true

/-- The phase that suits a future between two operations. -/
def Phase.Rest (phase : Phase) : FutureState → Prop
  | .unborn | .elsewhere => True
  | .live future polls none => polls.ready = future.core.resolved ∧ Announced phase (endingOf future) future.core
  | .live future polls (some kept) =>
      polls.ready = true ∧ future.core.resolved = true ∧ isBoxed future = true ∧ KeptRest phase kept
  | .gone _ _ kept => ∀ guard, kept = some guard → KeptRest phase guard

/-- What a poll leaves: a wait that was announced, or a beginning that was reported. -/
def PolledRest {Output : Type} (ending : Event) (resolved : Output → Option Event) (phase : Phase) :
    Poll Output × Awaiting → Prop
  | (.pending, future) => future.resolved = false ∧ Announced phase ending future
  | (.ready value, future) => future.resolved = true ∧
      ∀ event, resolved value = some event → begins event = true → phase.last = .nobody ∨ phase.last = .told event

theorem knows_of_told {beginning ending : Event} {heard : Heard} (told : heard = .nobody ∨ heard = .told beginning)
    (matched : endOf beginning ending = true) : Knows heard ending := by
  rcases told with isNobody | isTold
  · exact .inl isNobody
  · exact .inr ⟨beginning, isTold, matched⟩

theorem awaitingPoll_rest {Output : Type} {inner : RuntimeM Value (Poll Output)}
    {announce : Event → RuntimeM Value Unit}
    {requested ending : Event} {resolved : Output → Option Event} {future : Awaiting} (answers : Unheard inner)
    (announces : Announces announce) (unresolved : future.resolved = false)
        (announced : Announced phase ending future)
    (isRequest : begins requested = true ∧ ends requested = false) (matched : endOf requested ending = true)
    (endless : ∀ value event, resolved value = some event → ends event = false) :
    HookConforms (fun later result => PolledRest ending resolved later result ∧
        result.2.resource = future.resource ∧ result.2.waiter = future.waiter) phase
      (future.poll inner announce requested resolved) := by
  refine answers.then fun answer => ?_
  cases answer with
  | pending =>
    cases isEmitted : future.requestedEmitted with
    | true => exact ⟨⟨unresolved, announced⟩, rfl, rfl⟩
    | false =>
      refine (announces phase requested isRequest.2).bind fun later _ told => ?_
      exact ⟨⟨unresolved, fun _ _ => knows_of_told (told isRequest.1) matched⟩, rfl, rfl⟩
  | ready value =>
    cases isEvent : resolved value with
    | none =>
      simp only [isEvent]
      refine ⟨⟨rfl, fun event same => ?_⟩, rfl, rfl⟩
      rw [isEvent] at same
      cases same
    | some event =>
      simp only [isEvent]
      refine (announces phase event (endless value event isEvent)).bind fun later _ told => ?_
      refine ⟨⟨rfl, fun event' same isBeginning => ?_⟩, rfl, rfl⟩
      rw [isEvent] at same
      cases same
      exact told isBeginning

/-- The drop of a boxed future: an announced wait ends, and one that was resolved ends silently. -/
theorem awaitingDrop_rest {kind : Awaitable} {slot : HookSlot} {dropped : Event} {future : Awaiting}
    (announced : Announced phase dropped future) :
    HookConforms (fun later _ => future.resolved = true → later = phase) phase
      (future.drop kind slot dropped : RuntimeM Value Unit) := by
  have drops : ∀ reached : Phase, (future.resolved = true → reached = phase) →
      HookConforms (fun later _ => future.resolved = true → later = phase) reached
        (tokio (.dropFuture kind future.inner) : RuntimeM Value Unit) :=
    fun reached same => ⟨trivial, fun _ _ => ⟨reached, rfl, same⟩⟩
  cases isPending : future.requestedEmitted && !future.resolved with
  | false =>
    simp only [Awaiting.drop, isPending, Bool.false_eq_true, if_false]
    exact drops phase fun _ => rfl
  | true =>
    simp only [Awaiting.drop, isPending, if_true]
    rw [Bool.and_eq_true, Bool.not_eq_true'] at isPending
    obtain ⟨isEmitted, unresolved⟩ := isPending
    refine (withHook_told fun _ => announced isEmitted unresolved).bind fun later _ _ => drops later fun isResolved => ?_
    rw [unresolved] at isResolved
    cases isResolved

/-- A oneshot receiver reports the end of its wait, and its own. -/
theorem oneshotDrop_rest {receiver : Awaiting}
    (announced : Announced phase (.channelOpDropped receiver.resource receiver.waiter) receiver) :
    HookConforms (fun _ _ => True) phase (Oneshot.Receiver.drop receiver : RuntimeM Value Unit) := by
  have drops : ∀ later, HookConforms (fun _ _ => True) later
      (tokio (.dropEndpoint .oneshotReceiver receiver.inner) : RuntimeM Value Unit) :=
    fun later => ⟨trivial, fun _ _ => ⟨later, rfl, trivial⟩⟩
  have reports : HookConforms (fun _ _ => True) phase (withHook .channel do
      if receiver.requestedEmitted && !receiver.resolved then
        report (.channelOpDropped receiver.resource receiver.waiter)
      report (.channelEndpointDropped receiver.resource .receiver) : RuntimeM Value Unit) := ?_
  · exact reports.bind fun later _ _ => drops later
  refine ⟨trivial, fun installed _ => ⟨phase.look installed, rfl, ?_⟩⟩
  cases installed with
  | false => trivial
  | true =>
    have last : HookConforms (fun _ _ => True) (phase.look true)
        (report (.channelEndpointDropped receiver.resource .receiver) : RuntimeM Value Unit) :=
      ⟨⟨nofun, nofun⟩, fun _ _ => ⟨_, rfl, trivial⟩⟩
    cases isPending : receiver.requestedEmitted && !receiver.resolved with
    | false =>
      simp only [Bool.false_eq_true, if_false]
      exact last
    | true =>
      simp only [if_true]
      rw [Bool.and_eq_true, Bool.not_eq_true'] at isPending
      exact ⟨⟨nofun, fun _ => announced isPending.1 isPending.2⟩, fun _ _ => ⟨_, rfl, last⟩⟩

/-- The drop of a guard. -/
theorem released_rest {resource waiter : UInt64} {kind : AsyncAcquireKind} {inner : Handle}
    (knows : Knows phase.last (.released resource waiter kind)) :
    HookConforms (fun _ _ => True) phase (do
      withHook .lock (report (.released resource waiter kind))
      tokio (.dropGuard kind inner) : RuntimeM Value Unit) :=
  (withHook_told fun _ => knows).bind fun later _ _ => ⟨trivial, fun _ _ => ⟨later, rfl, trivial⟩⟩

theorem kept_drop_rest {kept : Kept} (rest : KeptRest phase kept) :
    HookConforms (fun _ _ => True) phase (kept.drop : RuntimeM Value Unit) := by
  cases kept with
  | mutexGuard guard | readGuard guard | writeGuard guard => exact released_rest (rest _ rfl)
  | permit held =>
    simp only [Kept.drop, ModelSemaphorePermit.drop]
    split
    · next inner isInner =>
      refine released_rest (rest _ ?_)
      rw [releaseOf, isInner]
      rfl
    · trivial

/-- The poll of a lock future: the guard is known to the hook that was told of the acquisition. -/
theorem guardPoll_rest {acquireKind : AsyncAcquireKind} {future : Awaiting} {polls : Polls}
    {inner : RuntimeM Value (Poll Handle)} (wrap : Awaiting → Future) (keep : Guard → Kept) (answers : Unheard inner)
    (isCore : ∀ future, (wrap future).core = future) (boxed : ∀ future, isBoxed (wrap future) = true)
    (isEnding : ∀ future, endingOf (wrap future) = .waiterDropped future.resource future.waiter)
    (isRelease : ∀ guard, releaseOf (keep guard) = some (.released guard.resource guard.waiter acquireKind))
    (rest : phase.Rest (.live (wrap future) polls none)) (unready : polls.ready = false) :
    HookConforms (fun later result =>
        later.Rest (.polled polls (Future.keepGuard keep wrap (result.1.map result.2.guard, result.2)))) phase
      (future.poll inner announceLock (.requested future.resource future.waiter acquireKind)
        fun _ => some (.acquired future.resource future.waiter acquireKind)) := by
  obtain ⟨isReady, announced⟩ := rest
  rw [isCore] at isReady announced
  rw [isEnding] at announced
  refine (awaitingPoll_rest answers (withHook_announces .lock) (isReady ▸ unready) announced
    ⟨rfl, rfl⟩ (by simp [endOf]) ?_).mono ?_
  · rintro value event same
    cases same
    rfl
  · rintro later ⟨_ | handle, self⟩ ⟨polled, isResource, isWaiter⟩
    · obtain ⟨unresolved, announced⟩ := polled
      refine ⟨?_, ?_⟩
      · rw [isCore, unresolved]
        exact unready
      · rw [isCore, isEnding, isResource, isWaiter]
        exact announced
    · obtain ⟨isResolved, told⟩ := polled
      refine ⟨rfl, ?_, boxed self, fun release same => ?_⟩
      · rw [isCore]
        exact isResolved
      · rw [isRelease] at same
        cases same
        have sameResource : self.resource = future.resource := isResource
        have sameWaiter : self.waiter = future.waiter := isWaiter
        exact knows_of_told (told _ rfl rfl) (by simp [endOf, Awaiting.guard, sameResource, sameWaiter])

/-- The poll of a future whose value is nobody's to release. -/
theorem valuePoll_rest {Output : Type} {inner : RuntimeM Value (Poll Output)} {slot : HookSlot} {requested : Event}
    {resolved : Output → Event} {future : Awaiting} {polls : Polls} (wrap : Awaiting → Future)
        (answers : Unheard inner)
    (isCore : ∀ future, (wrap future).core = future)
    (isEnding : ∀ other : Awaiting, other.resource = future.resource → other.waiter = future.waiter →
      endOf requested (endingOf (wrap other)) = true)
    (sameEnding : ∀ other : Awaiting, other.resource = future.resource → other.waiter = future.waiter →
      endingOf (wrap other) = endingOf (wrap future))
    (isRequest : begins requested = true ∧ ends requested = false) (endless : ∀ value, ends (resolved value) = false)
    (rest : phase.Rest (.live (wrap future) polls none)) (unready : polls.ready = false) :
    HookConforms (fun later result => later.Rest (.polled polls (Future.forgetValue wrap result))) phase
      (future.poll inner (fun event => withHook slot (report event)) requested fun value => some (resolved value)) := by
  obtain ⟨isReady, announced⟩ := rest
  rw [isCore] at isReady announced
  refine (awaitingPoll_rest answers (withHook_announces slot) (isReady ▸ unready) announced isRequest
    (isEnding future rfl rfl) ?_).mono ?_
  · rintro value event same
    cases same
    exact endless value
  · rintro later ⟨_ | value, self⟩ ⟨polled, isResource, isWaiter⟩
    · obtain ⟨unresolved, announced⟩ := polled
      refine ⟨?_, ?_⟩
      · rw [isCore, unresolved]
        exact unready
      · rw [isCore, sameEnding self isResource isWaiter]
        exact announced
    · refine ⟨?_, fun _ unresolved => ?_⟩
      · rw [isCore]
        exact polled.1.symm
      · rw [isCore, polled.1] at unresolved
        cases unresolved

/-- The poll of a semaphore's future, which a closed semaphore ends without an event. -/
theorem acquirePoll_rest {future : ModelSemaphoreAcquire} {polls : Polls}
    (rest : phase.Rest (.live (.acquire future) polls none)) (unready : polls.ready = false) :
    HookConforms (fun later result => later.Rest (.polled polls result)) phase
      (Future.poll (.acquire future) : RuntimeM Value (Poll (Option Kept) × Future)) := by
  obtain ⟨isReady, announced⟩ := rest
  simp only [Future.poll, ModelSemaphoreAcquire.poll, Program.bind_bind]
  refine Program.Conforms.bind (awaitingPoll_rest (unheard_tokio _) (announceCreated_announces _ _ _)
    (isReady ▸ unready) announced ⟨rfl, rfl⟩ (by simp [endOf, endingOf]) ?_) ?_
  · rintro (err | handle) event same
    · cases same
    · cases same
      rfl
  · rintro later ⟨_ | _ | handle, self⟩ ⟨polled, isResource, isWaiter⟩
    · obtain ⟨unresolved, announced⟩ := polled
      refine ⟨unready.trans unresolved.symm, ?_⟩
      change Announced later (.waiterDropped self.resource self.waiter) self
      have sameResource : self.resource = future.resource := isResource
      have sameWaiter : self.waiter = future.waiter := isWaiter
      rw [sameResource, sameWaiter]
      exact announced
    · refine ⟨polled.1.symm, fun _ unresolved => ?_⟩
      have isResolved : self.resolved = true := polled.1
      change self.resolved = false at unresolved
      rw [isResolved] at unresolved
      cases unresolved
    · obtain ⟨isResolved, told⟩ := polled
      refine ⟨rfl, isResolved, rfl, fun release same => ?_⟩
      cases same
      exact knows_of_told (told _ rfl rfl) (by simp [endOf, Guard.permit, Awaiting.guard])

theorem future_poll_rest {future : Future} {polls : Polls} (rest : phase.Rest (.live future polls none))
    (unready : polls.ready = false) :
    HookConforms (fun later result => later.Rest (.polled polls result)) phase
      (future.poll : RuntimeM Value (Poll (Option Kept) × Future)) := by
  cases future with
  | acquire future => exact acquirePoll_rest rest unready
  | lock future =>
    have answers : Unheard (tokio (.poll .lock future.inner) : RuntimeM Value (Poll Handle)) := unheard_tokio _
    simp only [Future.poll, ModelAsyncLock.poll, Program.bind_bind]
    refine Program.Conforms.bind (guardPoll_rest .lock .mutexGuard answers (fun _ => rfl) (fun _ => rfl) (fun _ => rfl)
      (fun _ => rfl) rest unready) ?_
    rintro later ⟨_ | _, self⟩ rested <;> exact rested
  | read future =>
    have answers : Unheard (tokio (.poll .read future.inner) : RuntimeM Value (Poll Handle)) := unheard_tokio _
    simp only [Future.poll, ModelAsyncRead.poll, Program.bind_bind]
    refine Program.Conforms.bind (guardPoll_rest .read .readGuard answers (fun _ => rfl) (fun _ => rfl) (fun _ => rfl)
      (fun _ => rfl) rest unready) ?_
    rintro later ⟨_ | _, self⟩ rested <;> exact rested
  | write future =>
    have answers : Unheard (tokio (.poll .write future.inner) : RuntimeM Value (Poll Handle)) := unheard_tokio _
    simp only [Future.poll, ModelAsyncWrite.poll, Program.bind_bind]
    refine Program.Conforms.bind (guardPoll_rest .write .writeGuard answers (fun _ => rfl) (fun _ => rfl) (fun _ => rfl)
      (fun _ => rfl) rest unready) ?_
    rintro later ⟨_ | _, self⟩ rested <;> exact rested
  | notified future =>
    have answers : Unheard (tokio (.poll .notified future.inner) : RuntimeM Value _) := unheard_tokio _
    refine Program.Conforms.bind (valuePoll_rest .notified answers (fun _ => rfl) ?_ ?_ ⟨rfl, rfl⟩ ?_ rest unready)
      fun _ _ rested => rested
    · simp +contextual [endOf, endingOf]
    · simp +contextual [endingOf]
    · exact fun _ => rfl
  | send future =>
    have answers : Unheard (tokio (.poll .send future.inner) : RuntimeM Value _) := unheard_tokio _
    refine Program.Conforms.bind (valuePoll_rest .send answers (fun _ => rfl) ?_ ?_ ⟨rfl, rfl⟩ ?_ rest unready)
      fun _ _ rested => rested
    · simp +contextual [endOf, endingOf]
    · simp +contextual [endingOf]
    · exact fun _ => rfl
  | recv future =>
    have answers : Unheard (tokio (.poll .recv future.inner) : RuntimeM Value _) := unheard_tokio _
    refine Program.Conforms.bind (valuePoll_rest .recv answers (fun _ => rfl) ?_ ?_ ⟨rfl, rfl⟩ ?_ rest unready)
      fun _ _ rested => rested
    · simp +contextual [endOf, endingOf]
    · simp +contextual [endingOf]
    · exact fun _ => rfl
  | changed future =>
    have answers : Unheard (tokio (.poll .changed future.inner) : RuntimeM Value _) := unheard_tokio _
    refine Program.Conforms.bind (valuePoll_rest .changed answers (fun _ => rfl) ?_ ?_ ⟨rfl, rfl⟩ ?_ rest unready)
      fun _ _ rested => rested
    · simp +contextual [endOf, endingOf]
    · simp +contextual [endingOf]
    · exact fun _ => rfl
  | oneshot future =>
    have answers : Unheard (tokio (.oneshotPoll future.inner) : RuntimeM Value _) := unheard_tokio _
    refine Program.Conforms.bind (valuePoll_rest .oneshot answers (fun _ => rfl) ?_ ?_ ⟨rfl, rfl⟩ ?_ rest unready)
      fun _ _ rested => rested
    · simp +contextual [endOf, endingOf]
    · simp +contextual [endingOf]
    · exact fun _ => rfl
  | broadcastRecv future =>
    have answers : Unheard (tokio (.poll .broadcastRecv future.inner) : RuntimeM Value _) := unheard_tokio _
    simp only [Future.poll, Broadcast.ModelBroadcastRecv.poll, Program.bind_bind]
    refine Program.Conforms.bind (valuePoll_rest (fun self => .broadcastRecv { future with toAwaiting := self }) answers
      (fun _ => rfl) ?_ ?_ ⟨rfl, rfl⟩ ?_ rest unready) ?_
    · simp +contextual [endOf, endingOf]
    · simp +contextual [endingOf]
    · exact fun _ => rfl
    · rintro later ⟨_ | _, self⟩ rested <;> exact rested

theorem future_drop_rest {future : Future} (announced : Announced phase (endingOf future) future.core) :
    HookConforms (fun later _ => isBoxed future = true → future.core.resolved = true → later = phase) phase
      (future.drop : RuntimeM Value Unit) := by
  cases future with
  | oneshot receiver =>
    refine (oneshotDrop_rest announced).mono fun _ _ _ boxed => ?_
    cases boxed
  | lock | read | write | acquire | notified | send | recv | changed | broadcastRecv =>
    exact (awaitingDrop_rest announced).mono fun _ _ same _ => same

/-- A future that was just made. -/
theorem made_rest {future : Future} (fresh : Fresh future.core) : phase.Rest (.made future) := by
  refine ⟨fresh.2.symm, fun isEmitted => ?_⟩
  rw [fresh.1] at isEmitted
  cases isEmitted

/-- A future that is made after its primitive's id was read. -/
theorem getStart_fresh (resource : AsyncResourceId) {inner : RuntimeM Value Handle} (makes : Unheard inner) :
    HookConforms (fun _ future => Fresh future) phase
      (resource.get (pure ()) >>= fun resource => Awaiting.start resource inner) :=
  (unheard_get resource (unheard_pure ())).then fun resource => start_fresh resource makes

theorem acquireWith_fresh (semaphore : ModelAsyncSemaphore) (permits : UInt32) {inner : RuntimeM Value Handle}
    (makes : Unheard inner) :
    HookConforms (fun _ future => Fresh future.toAwaiting) phase (semaphore.acquireWith permits inner) := by
  refine (unheard_get semaphore.resource (unheard_pure ())).then fun resource => ?_
  exact (start_fresh resource makes).bind fun _ _ fresh => fresh

theorem unheard_dropBoth (sender receiver : Endpoint) (inner : Handle × Handle) :
    Unheard (dropBoth sender receiver inner : RuntimeM Value Unit) :=
  (unheard_tokio _).bind fun _ => unheard_tokio _

theorem oneshotChannel_fresh :
    HookConforms (fun _ made => Fresh made.2) phase (Oneshot.channel : RuntimeM Value (Oneshot.Sender × Awaiting)) := by
  have makes : Unheard (tokio .oneshotChannel : RuntimeM Value (Handle × Handle)) := unheard_tokio _
  refine makes.then fun inner => ?_
  have drops : Unheard (dropBoth .oneshotSender .oneshotReceiver inner : RuntimeM Value Unit) :=
    unheard_dropBoth _ _ inner
  refine (unheard_nextResource drops).then fun resource => ?_
  refine (withHook_announces .channel phase (.channelCreated resource .oneshot) rfl).bind fun later _ _ => ?_
  exact (unheard_nextWaiter drops).then fun op => ⟨rfl, rfl⟩

/-- A try-operation reports the acquisition of what it returns. -/
theorem tryGuard_rest {ε : Type} {resource : AsyncResourceId} {kind : AsyncAcquireKind}
    {announce : UInt64 → Event → RuntimeM Value Unit} {attempt : RuntimeM Value (Except ε Handle)}
    (attempts : Unheard attempt)
    (announces : ∀ resource, Announces (announce resource)) :
    HookConforms (fun later result => ∀ guard, result = .ok guard →
        Knows later.last (.released guard.resource guard.waiter kind)) phase
      (tryGuard resource kind announce attempt) := by
  refine attempts.then fun result => ?_
  cases result with
  | error err =>
    intro guard same
    cases same
  | ok inner =>
    refine (unheard_get resource (unheard_tokio _)).then fun resource => ?_
    refine (unheard_nextWaiter (unheard_tokio _)).then fun waiter => ?_
    refine (announces resource phase _ rfl).bind fun later _ told guard same => ?_
    cases same
    exact knows_of_told (told rfl) (by simp [endOf])

/-- The permits of a semaphore are those of a guard. -/
theorem tryAcquire_rest {self : ModelAsyncSemaphore} {permits : UInt32}
    {attempt : RuntimeM Value (Except TryAcquireError Handle)} (attempts : Unheard attempt) :
    HookConforms (fun later state => later.Rest state) phase (do
      return .tried .permit ModelSemaphorePermit.waiter (← self.tryAcquireWith permits attempt)) := by
  simp only [ModelAsyncSemaphore.tryAcquireWith, Program.bind_bind]
  refine (tryGuard_rest attempts fun _ => announceCreated_announces _ _ _).bind fun later result knows => ?_
  cases result with
  | error err => trivial
  | ok guard =>
    intro kept same release isRelease
    cases same
    cases isRelease
    exact knows guard rfl

theorem tryLock_rest {self : Primitive} {kind : AsyncAcquireKind} {keep : Guard → Kept}
    {attempt : RuntimeM Value (Except Unit Handle)} (attempts : Unheard attempt)
    (isRelease : ∀ guard, releaseOf (keep guard) = some (.released guard.resource guard.waiter kind)) :
    HookConforms (fun later state => later.Rest state) phase (do
      return .tried keep Guard.waiter (← tryGuard self.resource kind (fun _ => announceLock) attempt)) := by
  refine (tryGuard_rest attempts fun _ => withHook_announces .lock).bind fun later result knows => ?_
  cases result with
  | error err => trivial
  | ok guard =>
    intro kept same release released
    cases same
    rw [isRelease] at released
    cases released
    exact knows guard rfl

/-- A permit that is forgotten is not released. -/
theorem forget_unheard (held : ModelSemaphorePermit) : Unheard (held.forget : RuntimeM Value Unit) := by
  obtain ⟨inner, resource, waiter, permits⟩ := held
  cases inner with
  | none => exact unheard_pure ()
  | some inner => exact (unheard_tokio _).bind fun _ => unheard_pure ()

/-- Events that begin and end nothing. -/
theorem reportAll_conforms {events : List Event} (found : phase.last ≠ .nobody)
    (idle : ∀ event ∈ events, begins event = false ∧ ends event = false) :
    HookConforms (fun _ _ => True) phase (reportAll events : RuntimeM Value Unit) := by
  induction events generalizing phase with
  | nil => trivial
  | cons event rest ih =>
    obtain ⟨beginless, endless⟩ := idle event List.mem_cons_self
    refine ⟨⟨found, fun isEnd => ?_⟩, fun _ _ => ⟨phase.tell event, rfl, ?_⟩⟩
    · rw [endless] at isEnd
      cases isEnd
    · have same : phase.tell event = phase := by
        rw [Phase.tell, beginless]
        rfl
      rw [same]
      exact ih found fun event isLater => idle event (List.mem_cons_of_mem _ isLater)

/-- Another call begins and ends nothing. -/
theorem call_conforms (slot : HookSlot) (events : List Event) :
    HookConforms (fun _ _ => True) phase
      (withHook slot (reportAll (events.filter fun event => !begins event && !ends event)) : RuntimeM Value Unit) := by
  refine ⟨trivial, fun installed _ => ⟨phase.look installed, rfl, ?_⟩⟩
  cases installed with
  | false => trivial
  | true =>
    have found : (phase.look true).last ≠ .nobody := nofun
    apply reportAll_conforms found
    intro event member
    simpa using (List.mem_filter.mp member).2

/-- The making of a future. -/
theorem making_conforms {operation : FutureOperation Value} {program : RuntimeM Value FutureState}
    (started : hookedCall .unborn (.future operation : HookedOperation Value Hook) = some program) :
    HookConforms (fun later state => later.Rest state) phase program := by
  cases operation <;> cases started
  case lock self | read self | write self | notified self =>
    exact (getStart_fresh self.resource (unheard_tokio _)).bind fun _ _ fresh => made_rest fresh
  case acquire self | acquireMany self n =>
    exact (acquireWith_fresh self _ (unheard_tokio _)).bind fun _ _ fresh => made_rest fresh
  case send self value | recv self | unboundedRecv self | changed self =>
    exact (start_fresh self.resource (unheard_tokio _)).bind fun _ _ fresh => made_rest fresh
  case broadcastRecv self =>
    refine Program.Conforms.bind ((start_fresh self.resource (unheard_tokio _)).bind ?_) fun _ _ fresh => made_rest fresh
    exact fun _ _ fresh => fresh
  case oneshot => exact oneshotChannel_fresh.bind fun _ _ fresh => made_rest fresh

/-- What a future does after it was made. -/
theorem living_conforms {future : Future} {polls : Polls} {kept : Option Kept} {operation : FutureOperation Value}
    {program : RuntimeM Value FutureState}
    (started : hookedCall (.live future polls kept) (.future operation : HookedOperation Value Hook) = some program)
    (rest : phase.Rest (.live future polls kept)) :
        HookConforms (fun later state => later.Rest state) phase program := by
  cases kept with
  | none =>
    cases operation
    case poll =>
      simp only [hookedCall, futureStart] at started
      split at started
      · cases started
      · next unready =>
        cases started
        exact (future_poll_rest rest (Bool.eq_false_of_not_eq_true unready)).bind fun _ _ rested => rested
    case drop =>
      cases started
      refine (future_drop_rest rest.2).bind fun later _ _ guard isGuard => ?_
      cases isGuard
    all_goals cases started
  | some kept =>
    obtain ⟨isReady, isResolved, boxed, known⟩ := rest
    cases operation
    case poll =>
      simp only [hookedCall, futureStart, isReady, if_true] at started
      cases started
    case drop =>
      cases started
      have announced : Announced phase (endingOf future) future.core := by
        intro _ unresolved
        rw [isResolved] at unresolved
        cases unresolved
      refine (future_drop_rest announced).bind fun later _ same guard isGuard => ?_
      cases isGuard
      rw [same boxed isResolved]
      exact known
    case dropKept =>
      cases started
      refine (kept_drop_rest known).bind fun later _ _ => ⟨isReady.trans isResolved.symm, fun _ unresolved => ?_⟩
      rw [isResolved] at unresolved
      cases unresolved
    all_goals cases started

/-- A permit is forgotten. -/
theorem forgetting_conforms {state : FutureState} {program : RuntimeM Value FutureState}
    (started : hookedCall state (.forget : HookedOperation Value Hook) = some program) (rest : phase.Rest state) :
    HookConforms (fun later state => later.Rest state) phase program := by
  cases state with
  | unborn | elsewhere => cases started
  | live future polls kept =>
    cases kept with
    | none => cases started
    | some kept =>
      cases kept <;> cases started
      refine (forget_unheard _).then fun _ => ?_
      obtain ⟨isReady, isResolved, -, -⟩ := rest
      refine ⟨isReady.trans isResolved.symm, fun _ unresolved => ?_⟩
      rw [isResolved] at unresolved
      cases unresolved
  | gone waiter polls kept =>
    cases kept with
    | none => cases started
    | some kept =>
      cases kept <;> cases started
      refine (forget_unheard _).then fun _ guard isGuard => ?_
      cases isGuard

/-- Every operation of the runtime keeps the knowledge of the hooks in order. -/
theorem hookedCall_conforms {state : FutureState} {operation : HookedOperation Value Hook}
    {program : RuntimeM Value FutureState} (started : hookedCall state operation = some program)
    (rest : phase.Rest state) :
    HookConforms (fun later state => later.Rest state) phase program := by
  cases operation with
  | change change => cases state <;> cases started
  | forget => exact forgetting_conforms started rest
  | tryLock self | tryRead self | tryWrite self =>
    cases state <;> cases started
    exact tryLock_rest (unheard_tokio _) fun _ => rfl
  | tryAcquire self | tryAcquireMany self n =>
    cases state <;> cases started
    exact tryAcquire_rest (unheard_tokio _)
  | call slot events =>
    cases state <;> cases started
    exact (call_conforms slot events).bind fun _ _ _ => trivial
  | future operation =>
    cases state with
    | unborn => exact making_conforms started
    | live future polls kept => exact living_conforms started rest
    | elsewhere => cases operation <;> cases started
    | gone waiter polls kept =>
      cases kept with
      | none => cases operation <;> cases started
      | some kept =>
        cases operation <;> cases started
        exact (kept_drop_rest (rest kept rfl)).bind fun _ _ _ => nofun

end Futures

section Invariant

/-- The protocol beside changes of hooks, of which a process takes no notice. -/
def hookProtocol (Value Hook : Type) : Protocol (HookedEffect Value Hook) HookedEffect.Reply Phase where
  permits phase
    | .inl effect => phase.permits effect
    | .inr _ => True
  possible _ _ := True
  after phase
    | .inl effect, reply => phase.after effect reply
    | .inr _, _ => some phase

/-- What a hook that was found has heard. -/
def Heeds (heard : List (Hook × Event)) : Option Hook → Heard → Prop
  | found, .nobody => found = none
  | found, .nothing => found ≠ none
  | found, .told event => ∃ hook, found = some hook ∧ (hook, event) ∈ heard

/-- An end was begun before the same hook. -/
def Follows (before : List (Hook × Event)) (entry : Hook × Event) : Prop :=
  ends entry.2 = true → ∃ beginning, (entry.1, beginning) ∈ before ∧ endOf beginning entry.2 = true

structure Invariant (state : HookedWorld Inner Process Hook) (phases : Process → Phase) : Prop where
  last : ∀ process, Heeds state.heard (state.found process) (phases process).last
  before : ∀ process, Heeds state.heard (state.foundBefore process) (phases process).before
  follow : Throughout Follows state.heard

theorem Heeds.more {heard : List (Hook × Event)} {found : Option Hook} {knowledge : Heard}
    (heeds : Heeds heard found knowledge) (entry : Hook × Event) : Heeds (heard ++ [entry]) found knowledge := by
  cases knowledge with
  | nobody => exact heeds
  | nothing => exact heeds
  | told event =>
    obtain ⟨hook, isFound, told⟩ := heeds
    exact ⟨hook, isFound, List.mem_append_left _ told⟩

variable [DecidableEq Process] {state : HookedWorld Inner Process Hook} {phases : Process → Phase}
  {process : Process}

abbrev HookConfig (Value Hook Inner Process : Type) :=
  System.Config (HookedEffect Value Hook) HookedEffect.Reply Process FutureState (HookedWorld Inner Process Hook)

abbrev HookAction (Value Hook Choice Process : Type) := System.Action Process (HookedOperation Value Hook) Choice

/-- The report of an end goes to the hook that the process had found before it looked for the hook that it
reports to. -/
def isSteady [DecidableEq Hook] (config : HookConfig Value Hook Inner Process) :
    HookAction Value Hook Choice Process → Bool
  | .advance process _ =>
      match config.program process with
      | .call (.inl (.report event)) _ =>
          !ends event || config.shared.found process == config.shared.foundBefore process
      | _ => true
  | .start .. => true

/-- A process looks at a slot. -/
theorem Invariant.looks (holds : Invariant state phases) (slot : HookSlot) :
    Invariant { state with
        found := Function.update state.found process (state.slots slot)
        foundBefore := Function.update state.foundBefore process (state.found process) }
      (Function.update phases process ((phases process).look (state.slots slot).isSome)) := by
  constructor
  · intro other
    rcases eq_or_ne other process with rfl | different
    · simp only [Function.update_self]
      cases isFound : state.slots slot with
      | none => rfl
      | some hook => exact nofun
    · simp only [Function.update_of_ne different]
      exact holds.last other
  · intro other
    rcases eq_or_ne other process with rfl | different
    · simp only [Function.update_self]
      exact holds.last other
    · simp only [Function.update_of_ne different]
      exact holds.before other
  · exact holds.follow

/-- A hook that was found is told of an event; of an end only if it was the one before. -/
theorem Invariant.tells (holds : Invariant state phases) {hook : Hook} {event : Event}
    (isFound : state.found process = some hook) (knows : ends event = true → Knows (phases process).before event)
    (steady : ends event = true → state.found process = state.foundBefore process) :
    Invariant { state with heard := state.heard ++ [(hook, event)] }
      (Function.update phases process ((phases process).tell event)) := by
  constructor
  · intro other
    rcases eq_or_ne other process with rfl | different
    · simp only [Function.update_self, Phase.tell]
      split
      · exact ⟨hook, isFound, List.mem_append_right _ (List.mem_singleton_self _)⟩
      · exact (holds.last other).more _
    · simp only [Function.update_of_ne different]
      exact (holds.last other).more _
  · intro other
    have same : (Function.update phases process ((phases process).tell event) other).before = (phases other).before := by
      rcases eq_or_ne other process with rfl | different
      · simp only [Function.update_self, Phase.tell]
        split <;> rfl
      · rw [Function.update_of_ne different]
    rw [same]
    exact (holds.before other).more _
  · apply holds.follow.append
    intro isEnd
    have before := holds.before process
    rw [← steady isEnd, isFound] at before
    rcases knows isEnd with isNobody | ⟨beginning, isTold, matched⟩
    · rw [isNobody] at before
      cases before
    · rw [isTold] at before
      obtain ⟨hook', same, told⟩ := before
      cases same
      exact ⟨beginning, told, matched⟩

variable {spec : Process → Inner → (call : Tokio Value) → Choice → Option (call.Reply × Inner)}

theorem hookSystem_starts :
    (hookSystem spec : System _ _ _ _ _ _ (HookedWorld Inner Process Hook)).Starts (hookProtocol Value Hook)
      fun later state => later.Rest state := by
  intro process value operation program phase started rest
  have calls : ∀ call, hookedCall value operation = some call →
      (call.inject : Program (HookedEffect Value Hook) HookedEffect.Reply FutureState).Conforms (hookProtocol Value Hook)
        (fun later state => later.Rest state) phase := by
    intro call isCall
    exact Program.conforms_inject.mpr (hookedCall_conforms isCall rest)
  cases operation with
  | change change =>
    cases started
    exact ⟨trivial, fun _ _ => ⟨phase, rfl, rest⟩⟩
  | future | tryLock | tryRead | tryWrite | tryAcquire | tryAcquireMany | forget | call =>
    obtain ⟨call, isCall, rfl⟩ := Option.map_eq_some_iff.mp started
    exact calls call isCall

theorem hookSystem_keeps [DecidableEq Hook] :
    (hookSystem spec : System _ _ _ _ _ _ (HookedWorld Inner Process Hook)).KeepsWhen (isSteady · ·)
      (hookProtocol Value Hook) (fun later state => later.Rest state) Invariant := by
  intro config phases process effect next choice reply shared phased steady running answered
  obtain ⟨holds, conform⟩ := phased
  refine ⟨trivial, fun later permitted moved => ?_⟩
  cases effect with
  | inr change =>
    cases answered
    cases moved
    rw [Function.update_eq_self]
    exact ⟨holds.last, holds.before, holds.follow⟩
  | inl effect =>
    cases effect with
    | hook slot =>
      cases answered
      cases moved
      exact holds.looks slot
    | report event =>
      obtain ⟨hook, isFound, same⟩ := Option.map_eq_some_iff.mp answered
      cases same
      cases moved
      apply holds.tells isFound permitted.2
      intro isEnd
      simpa [isSteady, running, isEnd] using steady
    | tokio | newAtomic | load | compareExchange | fetchAdd | newFlag | swapFlag | nextResource | nextWaiter | panic =>
      simp only [hookSystem, HookedWorld.answer, Option.map_eq_some_iff] at answered
      obtain ⟨⟨reply', world⟩, -, same⟩ := answered
      cases same
      cases moved
      rw [Function.update_eq_self]
      exact ⟨holds.last, holds.before, holds.follow⟩

end Invariant

section Runs

variable [DecidableEq Process] [DecidableEq Hook]
  {spec : Process → Inner → (call : Tokio Value) → Choice → Option (call.Reply × Inner)}

/-- Nothing is made yet. Hooks may be installed. -/
def atFirst (world : World Inner) (slots : HookSlot → Option Hook) : HookConfig Value Hook Inner Process :=
  ⟨{ world, slots }, fun _ => .done .unborn⟩

/-- **Hooks that are exchanged.** Wherever a guard, a permit or an announced future is only dropped while no hook is
installed or the one that was found at its beginning, each hook sees a release or a dropped wait only after the
acquisition or the announcement of its own. -/
theorem hooks_see_own_beginnings {world : World Inner} {slots : HookSlot → Option Hook}
    {actions : List (HookAction Value Hook Choice Process)} {config : HookConfig Value Hook Inner Process}
    (reached : run? (hookSystem spec).step (atFirst world slots) actions = some config)
    (steady : Along (hookSystem spec).step (isSteady · ·) (atFirst world slots) actions) :
    Throughout Follows config.shared.heard := by
  have begins : System.Phased (hookProtocol Value Hook) (fun later state => later.Rest state) Invariant
      (atFirst world slots : HookConfig Value Hook Inner Process) fun _ => {} :=
    ⟨⟨fun _ => rfl, fun _ => rfl, throughout_nil _⟩, fun _ => trivial⟩
  obtain ⟨phases, holds, -⟩ :=
    System.phases_of_admitted_run hookSystem_starts.always hookSystem_keeps begins reached steady
  exact holds.follow

/-- A hook is installed, and a mutex is locked under it. -/
def lockedUnderHook : List (HookAction Unit ℕ Bool Bool) :=
  List.flatten [[.start true (.change ⟨.lock, some 1⟩), .advance true true],
    [.start false (.future (.lock ⟨0, 0⟩))], List.replicate 5 (.advance false true),
    [.start false (.future .poll)], List.replicate 3 (.advance false true)]

/-- The hook is cleared, installed again, and the guard is dropped. -/
def droppedUnderHook : List (HookAction Unit ℕ Bool Bool) :=
  lockedUnderHook ++ [.start true (.change ⟨.lock, none⟩), .advance true true,
    .start true (.change ⟨.lock, some 1⟩), .advance true true, .start false (.future .dropKept)] ++
    List.replicate 3 (.advance false true)

theorem hooks_see_own_beginnings_again :
    ∃ config, run? (hookSystem (exclusiveLock .mutex)).step (atFirst { inner := [] } fun _ => none) droppedUnderHook =
        some config ∧
      config.shared.heard = [(1, .acquired 1 1 .mutex), (1, .released 1 1 .mutex)] ∧
      Throughout Follows config.shared.heard := by
  have shown : (run? (hookSystem (exclusiveLock .mutex)).step (atFirst { inner := [] } fun _ => none)
      droppedUnderHook).map (fun config => config.shared.heard) =
        some [(1, .acquired 1 1 .mutex), (1, .released 1 1 .mutex)] := by decide
  obtain ⟨config, reached, heard⟩ := Option.map_eq_some_iff.mp shown
  exact ⟨config, reached, heard, hooks_see_own_beginnings reached (by decide)⟩

/-- Another hook is installed, and the guard is dropped. -/
def droppedUnderAnother : List (HookAction Unit ℕ Bool Bool) :=
  lockedUnderHook ++ [.start true (.change ⟨.lock, some 2⟩), .advance true true, .start false (.future .dropKept)] ++
    List.replicate 3 (.advance false true)

/-- The new hook sees the release of a guard whose acquisition the old one saw. -/
theorem release_seen_by_another :
    ¬ ∀ config, run? (hookSystem (exclusiveLock .mutex)).step (atFirst { inner := [] } fun _ => none)
        droppedUnderAnother = some config → Throughout Follows config.shared.heard := by
  intro always
  have shown : (run? (hookSystem (exclusiveLock .mutex)).step (atFirst { inner := [] } fun _ => none)
      droppedUnderAnother).map (fun config => config.shared.heard) =
        some [(1, .acquired 1 1 .mutex), (2, .released 1 1 .mutex)] := by decide
  obtain ⟨config, reached, heard⟩ := Option.map_eq_some_iff.mp shown
  have follow := always config reached
  rw [heard] at follow
  obtain ⟨beginning, told, -⟩ := follow [(1, .acquired 1 1 .mutex)] (2, .released 1 1 .mutex) [] rfl rfl
  simp at told

end Runs

end Laplace.Soundness.HookHandovers
