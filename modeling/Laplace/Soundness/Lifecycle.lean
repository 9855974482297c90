import Laplace.Model.FutureRuns
import Laplace.Model.LockRuns
import Laplace.Soundness.RuntimeRuns

/-! # The lifecycle grammar of the awaitable operations

Ten futures keep two flags each and report through four hooks. Whatever tokio answers and whenever a future
is dropped, the events under its id are one of four words: nothing, resolved, requested and resolved, or
requested and dropped. The ids come from one checked counter, so that futures which live side by side never
write under the same id.
-/

namespace Laplace.Soundness

open Laplace.Machine Laplace.Model Laplace.Model.Runtime

variable {Value Inner Choice Process : Type}

inductive Stage where
  | requested
  | resolved
  | dropped
deriving DecidableEq, Repr

/-- The step of a lifecycle that an event reports. -/
def lifecycleStage : Event → Option Stage
  | .requested .. | .notifyWaitRequested .. | .channelOpRequested .. | .broadcastOpRequested .. => some .requested
  | .acquired .. | .notifyWaitResolved .. | .channelOpResolved .. | .broadcastOpResolved .. => some .resolved
  | .waiterDropped .. | .notifyWaiterDropped .. | .channelOpDropped .. | .broadcastOpDropped .. => some .dropped
  | _ => none

/-- The id of a process, and what it wrote under it. -/
structure LifePhase where
  id : Option UInt64 := none
  said : List Event := []

namespace LifePhase

def draw (phase : LifePhase) (id : UInt64) : Option LifePhase :=
  if phase.id = none ∧ phase.said = [] then some { phase with id := some id } else none

/-- A lifecycle event is written under the process's own id. -/
def say (phase : LifePhase) (event : Event) : Option LifePhase :=
  match lifecycleId event with
  | none => some phase
  | some id => if phase.id = some id then some { phase with said := phase.said ++ [event] } else none

def after (phase : LifePhase) : (effect : Effect Value) → effect.Reply → Option LifePhase
  | .nextWaiter, some id => phase.draw id
  | .report event, _ => phase.say event
  | _, _ => some phase

end LifePhase

open LifePhase

/-- Tokio's semaphore is never closed, so that an acquisition does not end in its error. -/
def lifeReply : (effect : Effect Value) → effect.Reply → Prop
  | .tokio (.poll .acquire _), .ready (.error _) => False
  | effect, reply => hookedReply effect reply

def lifeProtocol (Value : Type) : Protocol (Effect Value) Effect.Reply LifePhase where
  possible := lifeReply
  after := LifePhase.after

/-- The word of a future that is alive. -/
def aliveWord (polls : Polls) : List Stage :=
  (if polls.pending then [.requested] else []) ++ if polls.ready then [.resolved] else []

/-- The word of a future that was dropped. -/
def finalWord (polls : Polls) : List Stage :=
  match polls.pending, polls.ready with
  | false, false => []
  | false, true => [.resolved]
  | true, true => [.requested, .resolved]
  | true, false => [.requested, .dropped]

/-- The word that a process wrote. -/
def LifePhase.word (phase : LifePhase) : List Stage := phase.said.filterMap lifecycleStage

/-- The flags of a future say what its polls answered, and what it wrote. -/
structure Lives (polls : Polls) (future : Awaiting) (phase : LifePhase) : Prop where
  named : phase.id = some future.waiter
  emitted : future.requestedEmitted = polls.pending
  resolved : future.resolved = polls.ready
  wrote : phase.word = aliveWord polls

/-- The phase that suits a future between two operations. -/
def LifePhase.Rest (phase : LifePhase) : FutureState → Prop
  | .unborn => phase.id = none ∧ phase.said = []
  | .live future polls _ => Lives polls future.core phase
  | .gone waiter polls _ => phase.id = some waiter ∧ phase.word = finalWord polls
  | .elsewhere => True

section Conformance

variable {α : Type}

abbrev LifeConforms (rest : LifePhase → α → Prop) (phase : LifePhase) (program : RuntimeM Value α) : Prop :=
  program.Conforms (lifeProtocol Value) rest phase

variable {phase : LifePhase}

theorem life_ignores (Value : Type) (phase : LifePhase) : Ignores (lifeProtocol Value) phase := by
  intro effect books
  refine ⟨trivial, fun reply _ => ?_⟩
  cases effect
  case load | compareExchange | nextResource | hook | panic => rfl
  all_goals cases books

/-- Calls of tokio write nothing. -/
theorem tokio_unnoticed (phase : LifePhase) (call : Tokio Value) :
    LifeConforms (fun later reply => later = phase ∧ lifeReply (.tokio call) reply) phase (tokio call) :=
  ⟨trivial, fun _ isPossible => ⟨phase, rfl, rfl, isPossible⟩⟩

/-- A process without an id draws one. -/
theorem draw_named (unnamed : phase.id = none ∧ phase.said = []) :
    LifeConforms (fun later id => match id with
      | some id => later = ⟨some id, []⟩
      | none => later = phase) phase (perform .nextWaiter : RuntimeM Value (Option UInt64)) := by
  refine ⟨trivial, fun id _ => ?_⟩
  cases id with
  | none => exact ⟨phase, rfl, rfl⟩
  | some id =>
    exact ⟨{ phase with id := some id }, if_pos unnamed, congrArg (LifePhase.mk (some id)) unnamed.2⟩

/-- The process writes an event under its id. -/
def LifePhase.write (phase : LifePhase) (event : Event) : LifePhase := { phase with said := phase.said ++ [event] }

theorem say_own {event : Event} {id : UInt64} (named : phase.id = some id) (own : lifecycleId event = some id) :
    phase.say event = some (phase.write event) := by
  simp only [say, own, named, if_true, LifePhase.write]

theorem report_own {event : Event} {id : UInt64} (named : phase.id = some id) (own : lifecycleId event = some id) :
    LifeConforms (fun later _ => later = phase.write event) phase (report event : RuntimeM Value Unit) :=
  ⟨trivial, fun _ _ => ⟨_, say_own named own, rfl⟩⟩

theorem report_unowned {event : Event} (unowned : lifecycleId event = none) :
    LifeConforms (fun later _ => later = phase) phase (report event : RuntimeM Value Unit) := by
  refine ⟨trivial, fun _ _ => ⟨phase, ?_, rfl⟩⟩
  change phase.say event = some phase
  simp only [say, unowned]

/-- The hook is installed, so that reports are made. -/
theorem withHook_conforms {slot : HookSlot} {reports : RuntimeM Value Unit} {rest : LifePhase → Unit → Prop}
    (conforms : LifeConforms rest phase reports) : LifeConforms rest phase (withHook slot reports) := by
  refine Program.conforms_perform_bind.mpr ⟨trivial, fun installed isInstalled => ⟨phase, rfl, ?_⟩⟩
  obtain rfl : installed = true := isInstalled
  exact conforms

/-- A way to report an event under the id of the process. -/
def Announces (announce : Event → RuntimeM Value Unit) : Prop :=
  ∀ phase event id, LifePhase.id phase = some id → lifecycleId event = some id →
    LifeConforms (fun later _ => later = phase.write event) phase (announce event)

theorem withHook_announces (slot : HookSlot) :
    Announces (fun event => withHook slot (report event) : Event → RuntimeM Value Unit) :=
  fun _ _ _ named own => withHook_conforms (report_own named own)

/-- On its way, `hook_with_created` may report the creation, which belongs to no future. -/
theorem announceCreated_announces (createdReported : Handle) (initialPermits : ℕ) (resource : UInt64) :
    Announces (announceCreated createdReported initialPermits resource : Event → RuntimeM Value Unit) := by
  intro phase event id named own
  refine Program.conforms_perform_bind.mpr ⟨trivial, fun installed isInstalled => ⟨phase, rfl, ?_⟩⟩
  obtain rfl : installed = true := isInstalled
  refine Program.conforms_perform_bind.mpr ⟨trivial, fun was _ => ⟨phase, rfl, ?_⟩⟩
  cases was with
  | true => exact report_own named own
  | false =>
    refine (report_unowned rfl).bind ?_
    rintro _ _ rfl
    exact report_own named own

/-- What a poll leaves behind. -/
def Polled {Output : Type} (polls : Polls) (phase : LifePhase) : Poll Output × Awaiting → Prop
  | (.pending, future) => Lives { polls with pending := true } future phase
  | (.ready _, future) => Lives { polls with ready := true } future phase

theorem write_word (phase : LifePhase) (event : Event) (stage : Stage) (isStage : lifecycleStage event = some stage) :
    (phase.write event).word = phase.word ++ [stage] := by
  simp only [LifePhase.word, LifePhase.write, List.filterMap_append, List.filterMap_cons, List.filterMap_nil, isStage]

/-- The poll of every future: the first pending answer and the ready one each add a letter. -/
theorem awaitingPoll_lives {Output : Type} {inner : RuntimeM Value (Poll Output)}
    {announce : Event → RuntimeM Value Unit}
    {requested : Event} {resolved : Output → Option Event} {future : Awaiting} {polls : Polls}
    (lives : Lives polls future phase) (unready : polls.ready = false) (announces : Announces announce)
    (answers : LifeConforms (fun later answer => later = phase ∧
      ∀ value, answer = .ready value → ∃ event, resolved value = some event) phase inner)
    (ownRequest : lifecycleId requested = some future.waiter)
    (isRequest : lifecycleStage requested = some .requested)
    (isResolution : ∀ value event, resolved value = some event →
      lifecycleId event = some future.waiter ∧ lifecycleStage event = some .resolved) :
    LifeConforms (fun later result => Polled polls later result) phase
      (future.poll inner announce requested resolved) := by
  obtain ⟨named, emitted, unresolved, wrote⟩ := lives
  refine answers.bind ?_
  rintro _ answer ⟨rfl, reports⟩
  cases answer with
  | pending =>
    cases isPending : polls.pending with
    | true =>
      rw [if_pos (emitted.trans isPending)]
      refine ⟨named, emitted.trans isPending, unresolved, ?_⟩
      rw [wrote, aliveWord, aliveWord, isPending]
    | false =>
      rw [if_neg (by rw [emitted, isPending]; decide)]
      refine (announces _ requested _ named ownRequest).bind ?_
      rintro _ _ rfl
      refine ⟨named, rfl, unresolved, ?_⟩
      rw [write_word _ requested .requested isRequest, wrote]
      simp only [aliveWord, isPending, unready, Bool.false_eq_true, if_false, if_true, List.nil_append,
        List.append_nil]
  | ready value =>
    obtain ⟨event, isEvent⟩ := reports value rfl
    obtain ⟨own, isResolved⟩ := isResolution value event isEvent
    simp only [isEvent]
    refine (announces _ event _ named own).bind ?_
    rintro _ _ rfl
    refine ⟨named, emitted, rfl, ?_⟩
    rw [write_word _ event .resolved isResolved, wrote]
    simp only [aliveWord, unready, Bool.false_eq_true, if_false, if_true, List.append_nil]

/-- The drop of every boxed future: a wait that was reported and not resolved ends with a letter. -/
theorem awaitingDrop_final {kind : Awaitable} {slot : HookSlot} {dropped : Event} {future : Awaiting} {polls : Polls}
    (lives : Lives polls future phase) (own : lifecycleId dropped = some future.waiter)
    (isDrop : lifecycleStage dropped = some .dropped) :
    LifeConforms (fun later _ => later.id = some future.waiter ∧ later.word = finalWord polls) phase
      (future.drop kind slot dropped : RuntimeM Value Unit) := by
  obtain ⟨named, emitted, resolved, wrote⟩ := lives
  have drops : ∀ reached : LifePhase, reached.id = some future.waiter → reached.word = finalWord polls →
      LifeConforms (fun later _ => later.id = some future.waiter ∧ later.word = finalWord polls) reached
        (tokio (.dropFuture kind future.inner) : RuntimeM Value Unit) := by
    intro reached isNamed isFinal
    exact ⟨trivial, fun _ _ => ⟨reached, rfl, isNamed, isFinal⟩⟩
  obtain ⟨pending, ready⟩ := polls
  simp only [Awaiting.drop, emitted, resolved]
  cases pending <;> cases ready
  case true.false =>
    refine (withHook_conforms (report_own named own)).bind ?_
    rintro _ _ rfl
    refine drops _ named ?_
    rw [write_word _ dropped .dropped isDrop, wrote]
    rfl
  all_goals exact drops phase named wrote

/-- A oneshot receiver also reports its own end, which belongs to no operation. -/
theorem oneshotDrop_final {receiver : Awaiting} {polls : Polls} (lives : Lives polls receiver phase) :
    LifeConforms (fun later _ => later.id = some receiver.waiter ∧ later.word = finalWord polls) phase
      (Oneshot.Receiver.drop receiver : RuntimeM Value Unit) := by
  obtain ⟨named, emitted, resolved, wrote⟩ := lives
  have ends : ∀ reached : LifePhase, reached.id = some receiver.waiter → reached.word = finalWord polls →
      LifeConforms (fun later _ => later.id = some receiver.waiter ∧ later.word = finalWord polls) reached
        (report (.channelEndpointDropped receiver.resource .receiver) : RuntimeM Value Unit) := by
    intro reached isNamed isFinal
    refine (report_unowned rfl).mono ?_
    rintro _ _ rfl
    exact ⟨isNamed, isFinal⟩
  obtain ⟨pending, ready⟩ := polls
  simp only [Oneshot.Receiver.drop, emitted, resolved]
  refine Program.Conforms.bind (withHook_conforms ?_) fun later _ final =>
    ⟨trivial, fun _ _ => ⟨later, rfl, final⟩⟩
  cases pending <;> cases ready
  case true.false =>
    refine (report_own named rfl).bind ?_
    rintro _ _ rfl
    refine ends _ named ?_
    rw [write_word _ _ .dropped rfl, wrote]
    rfl
  all_goals exact ends phase named wrote

/-- The futures whose every answer has an event. -/
theorem announcedPoll_lives {Output : Type} {inner : RuntimeM Value (Poll Output)} {slot : HookSlot} {requested : Event}
    {resolved : Output → Event} {future : Awaiting} {polls : Polls} (lives : Lives polls future phase)
    (unready : polls.ready = false) (answers : LifeConforms (fun later _ => later = phase) phase inner)
    (ownRequest : lifecycleId requested = some future.waiter)
    (isRequest : lifecycleStage requested = some .requested)
    (isResolution : ∀ value, lifecycleId (resolved value) = some future.waiter ∧
      lifecycleStage (resolved value) = some .resolved) :
    LifeConforms (fun later result => Polled polls later result) phase
      (future.poll inner (fun event => withHook slot (report event)) requested fun value => some (resolved value)) := by
  refine awaitingPoll_lives lives unready (withHook_announces slot)
    (answers.mono fun later answer same => ⟨same, fun value _ => ⟨resolved value, rfl⟩⟩) ownRequest isRequest
    fun value event isEvent => ?_
  obtain rfl := Option.some.inj isEvent
  exact isResolution value

/-- The semaphore's future has no event for a closed semaphore. -/
theorem acquirePoll_lives {future : ModelSemaphoreAcquire} {polls : Polls} (lives : Lives polls future.toAwaiting phase)
    (unready : polls.ready = false) :
    LifeConforms (fun later result => later.Rest (.polled polls result)) phase
      (Future.poll (.acquire future) : RuntimeM Value (Poll (Option Kept) × Future)) := by
  simp only [Future.poll, ModelSemaphoreAcquire.poll, Program.bind_bind]
  refine Program.Conforms.bind (awaitingPoll_lives lives unready (announceCreated_announces _ _ _) ?_ rfl rfl ?_) ?_
  · refine ⟨trivial, fun answer isPossible => ⟨phase, rfl, rfl, fun value isReady => ?_⟩⟩
    subst isReady
    cases value with
    | ok handle => exact ⟨_, rfl⟩
    | error err => exact isPossible.elim
  · intro value event isEvent
    cases value with
    | ok handle =>
      obtain rfl := Option.some.inj isEvent
      exact ⟨rfl, rfl⟩
    | error err => cases isEvent
  · rintro later ⟨_ | _, future⟩ polled <;> exact polled

/-- What a poll leaves behind, as a state of the future. -/
theorem future_poll_lives {future : Future} {polls : Polls} (lives : Lives polls future.core phase)
    (unready : polls.ready = false) :
    LifeConforms (fun later result => later.Rest (.polled polls result)) phase
      (future.poll : RuntimeM Value (Poll (Option Kept) × Future)) := by
  cases future
  case acquire future => exact acquirePoll_lives lives unready
  all_goals
    simp only [Future.poll, ModelAsyncLock.poll, ModelAsyncRead.poll, ModelAsyncWrite.poll, ModelNotified.poll,
      Mpsc.ModelMpscSend.poll, Mpsc.ModelMpscRecv.poll, Watch.ModelWatchChanged.poll, ChannelEnd.pollOp,
      Broadcast.ModelBroadcastRecv.poll, Oneshot.Receiver.poll, Program.bind_bind]
    refine Program.Conforms.bind (announcedPoll_lives lives unready ?_ rfl rfl fun _ => ⟨rfl, rfl⟩) ?_
    · exact ⟨trivial, fun _ _ => ⟨phase, rfl, rfl⟩⟩
    · rintro later ⟨_ | _, future⟩ polled <;> exact polled

/-- Every future ends its word when it is dropped. -/
theorem future_drop_final {future : Future} {polls : Polls} (lives : Lives polls future.core phase) :
    LifeConforms (fun later _ => later.id = some future.core.waiter ∧ later.word = finalWord polls) phase
      (future.drop : RuntimeM Value Unit) := by
  cases future with
  | lock | read | write | acquire | notified | send | recv | changed | broadcastRecv =>
    exact awaitingDrop_final lives rfl rfl
  | oneshot receiver => exact oneshotDrop_final lives

/-- The release of a guard is not part of the lifecycle. -/
theorem kept_drop_unnoticed (kept : Kept) :
    LifeConforms (fun later _ => later = phase) phase (kept.drop : RuntimeM Value Unit) := by
  have released : ∀ resource waiter kind handle, LifeConforms (fun later _ => later = phase) phase
      (withHook .lock (report (.released resource waiter kind)) >>= fun _ =>
        (tokio (.dropGuard kind handle) : RuntimeM Value Unit)) := by
    intro resource waiter kind handle
    refine (withHook_conforms (report_unowned rfl)).bind ?_
    rintro _ _ rfl
    exact ⟨trivial, fun _ _ => ⟨_, rfl, rfl⟩⟩
  cases kept with
  | mutexGuard guard | readGuard guard | writeGuard guard => exact released _ _ _ _
  | permit held =>
    simp only [Kept.drop, ModelSemaphorePermit.drop]
    split
    · exact released _ _ _ _
    · exact rfl

end Conformance

section Starting

variable {phase : LifePhase}

/-- A future that was just made wrote nothing. -/
theorem made_lives {future : Awaiting} {later : LifePhase}
    (fresh : later = ⟨some future.waiter, []⟩ ∧ future.resolved = false ∧ future.requestedEmitted = false) :
    Lives {} future later := by
  obtain ⟨rfl, unresolved, unrequested⟩ := fresh
  exact ⟨rfl, unrequested, unresolved, rfl⟩

/-- Making a future: a fresh id, then tokio's future. -/
theorem start_lives (unborn : phase.id = none ∧ phase.said = []) (resource : UInt64) {inner : RuntimeM Value Handle}
    (makes : ∀ phase, LifeConforms (fun later _ => later = phase) phase inner) :
    LifeConforms (fun later future => Lives {} future later) phase (Awaiting.start resource inner) := by
  have keeps : ∀ (later : LifePhase) (id : UInt64), later = ⟨some id, []⟩ →
      LifeConforms (fun later _ => later = ⟨some id, []⟩) later inner := by
    rintro _ id rfl
    exact makes _
  exact (startFuture_conforms (life_ignores Value phase) (draw_named unborn) keeps).mono
    fun later future fresh => made_lives fresh

/-- The same, for the primitives that read their resource id first. -/
theorem getStart_lives (unborn : phase.id = none ∧ phase.said = []) (resource : AsyncResourceId)
    {inner : RuntimeM Value Handle} (makes : ∀ phase, LifeConforms (fun later _ => later = phase) phase inner) :
    LifeConforms (fun later future => Lives {} future later) phase
      (resource.get (pure ()) >>= fun resource => Awaiting.start resource inner) := by
  refine ((life_ignores Value phase).get (life_ignores Value phase).unwound).bind ?_
  rintro _ id rfl
  exact start_lives unborn id makes

theorem makes_unnoticed {call : Tokio Value} (phase : LifePhase) :
    LifeConforms (fun later _ => later = phase) phase (tokio call) :=
  (tokio_unnoticed phase call).mono fun _ _ same => same.1

theorem acquireWith_lives (unborn : phase.id = none ∧ phase.said = []) (semaphore : ModelAsyncSemaphore)
    (permits : UInt32) {inner : RuntimeM Value Handle}
    (makes : ∀ phase, LifeConforms (fun later _ => later = phase) phase inner) :
    LifeConforms (fun later future => Lives {} future.toAwaiting later) phase
      (semaphore.acquireWith permits inner) := by
  refine ((life_ignores Value phase).get (life_ignores Value phase).unwound).bind ?_
  rintro _ id rfl
  exact (start_lives unborn id makes).bind fun _ _ lives => lives

theorem broadcastRecv_lives (unborn : phase.id = none ∧ phase.said = []) (receiver : Broadcast.Receiver) :
    LifeConforms (fun later future => Lives {} future.toAwaiting later) phase
      (receiver.recv : RuntimeM Value Broadcast.ModelBroadcastRecv) :=
  (start_lives unborn receiver.resource makes_unnoticed).bind fun _ _ lives => lives

/-- Dropping both ends of a channel that could not be made. -/
theorem dropBoth_unnoticed (sender receiver : Endpoint) (inner : Handle × Handle) :
    LifeConforms (fun later _ => Ignores (lifeProtocol Value) later) phase
      (dropBoth sender receiver inner : RuntimeM Value Unit) := by
  refine (makes_unnoticed phase).bind ?_
  rintro _ _ rfl
  exact ⟨trivial, fun _ _ => ⟨_, rfl, life_ignores Value _⟩⟩

/-- A oneshot receiver is made with its channel. -/
theorem oneshotChannel_lives (unborn : phase.id = none ∧ phase.said = []) :
    LifeConforms (fun later ends => Lives {} ends.2 later) phase
      (Oneshot.channel : RuntimeM Value (Oneshot.Sender × Awaiting)) := by
  refine (makes_unnoticed phase).bind ?_
  rintro _ inner rfl
  refine ((life_ignores Value _).nextResource (dropBoth_unnoticed _ _ inner)).bind ?_
  rintro _ resource rfl
  refine (withHook_conforms (report_unowned rfl)).bind ?_
  rintro _ _ rfl
  refine (nextWaiter_conforms (draw_named unborn) (dropBoth_unnoticed _ _ inner)).bind ?_
  rintro _ op rfl
  exact ⟨rfl, rfl, rfl, rfl⟩

/-- Another call reports under its own id, or under none. -/
theorem reportAll_conforms {id : UInt64} {events : List Event} (named : phase.id = some id)
    (own : ∀ event ∈ events, lifecycleId event = some id ∨ lifecycleId event = none) :
    LifeConforms (fun _ _ => True) phase (reportAll events : RuntimeM Value Unit) := by
  induction events generalizing phase with
  | nil => exact trivial
  | cons event rest ih =>
    have restOwn : ∀ event ∈ rest, lifecycleId event = some id ∨ lifecycleId event = none :=
      fun event member => own event (List.mem_cons_of_mem _ member)
    rcases own event List.mem_cons_self with isOwn | unowned
    · refine (report_own named isOwn).bind ?_
      rintro _ _ rfl
      exact ih named restOwn
    · refine (report_unowned unowned).bind ?_
      rintro _ _ rfl
      exact ih named restOwn

theorem elsewhere_conforms (unborn : phase.id = none ∧ phase.said = []) (slot : HookSlot)
    (events : UInt64 → List Event) {program : RuntimeM Value FutureState}
    (started : futureStart .unborn (.elsewhere slot events) = some program) :
    LifeConforms (fun later state => later.Rest state) phase program := by
  obtain rfl := Option.some.inj started
  refine (nextWaiter_conforms (draw_named unborn) (life_ignores Value phase).unwound).bind ?_
  rintro _ id rfl
  have named : LifePhase.id ⟨some id, []⟩ = some id := rfl
  refine Program.Conforms.bind (withHook_conforms (reportAll_conforms named ?_)) fun _ _ _ => trivial
  intro event member
  simpa only [decide_eq_true_eq, Bool.or_eq_true] using (List.mem_filter.mp member).2

/-- Every operation keeps the grammar. -/
theorem futureStart_conforms {state : FutureState} {operation : FutureOperation Value}
    {program : RuntimeM Value FutureState} (started : futureStart state operation = some program)
    (rest : phase.Rest state) : LifeConforms (fun later state => later.Rest state) phase program := by
  cases state with
  | elsewhere => cases operation <;> cases started
  | unborn =>
    cases operation
    case poll | drop | dropKept => cases started
    case elsewhere slot events => exact elsewhere_conforms rest slot events started
    case oneshot =>
      obtain rfl := Option.some.inj started
      exact (oneshotChannel_lives rest).bind fun _ _ lives => lives
    case acquire self | acquireMany self n =>
      obtain rfl := Option.some.inj started
      exact (acquireWith_lives rest self _ makes_unnoticed).bind fun _ _ lives => lives
    case broadcastRecv self =>
      obtain rfl := Option.some.inj started
      exact (broadcastRecv_lives rest self).bind fun _ _ lives => lives
    case lock self | read self | write self | notified self =>
      obtain rfl := Option.some.inj started
      exact (getStart_lives rest self.resource makes_unnoticed).bind fun _ _ lives => lives
    case send | recv | unboundedRecv | changed =>
      obtain rfl := Option.some.inj started
      exact (start_lives rest _ makes_unnoticed).bind fun _ _ lives => lives
  | live future polls kept =>
    cases operation
    case poll =>
      simp only [futureStart] at started
      split at started
      · cases started
      · next unready =>
        obtain rfl := Option.some.inj started
        exact (future_poll_lives rest (Bool.eq_false_of_not_eq_true unready)).bind fun _ _ lives => lives
    case drop =>
      obtain rfl := Option.some.inj started
      exact (future_drop_final rest).bind fun _ _ final => final
    case dropKept =>
      cases kept with
      | none => cases started
      | some kept =>
        obtain rfl := Option.some.inj started
        refine (kept_drop_unnoticed kept).bind ?_
        rintro _ _ rfl
        exact rest
    all_goals cases kept <;> cases started
  | gone waiter polls kept =>
    cases operation
    case dropKept =>
      cases kept with
      | none => cases started
      | some kept =>
        obtain rfl := Option.some.inj started
        refine (kept_drop_unnoticed kept).bind ?_
        rintro _ _ rfl
        exact rest
    all_goals cases kept <;> cases started

end Starting

section Runs

variable [DecidableEq Process]
  {spec : Process → Inner → (call : Tokio Value) → Choice → Option (call.Reply × Inner)}

/-- No semaphore of this surface is ever closed. -/
def NeverClosed (spec : Process → Inner → (call : Tokio Value) → Choice → Option (call.Reply × Inner)) : Prop :=
  ∀ process inner handle choice next,
    spec process inner (.poll .acquire handle) choice ≠ some (.ready (.error ()), next)

/-- A hook is installed, and the lifecycle events under an id are what its process wrote. -/
structure LifeInvariant (world : World Inner) (phases : Process → LifePhase) : Prop where
  hooked : Hooked world
  attributed : Attribution lifecycleId LifePhase.id LifePhase.said (· < world.nextWaiter) world.trace phases

omit [DecidableEq Process] in
theorem life_possible {world next : World Inner} {process : Process} {effect : Effect Value} {choice : Choice}
    {reply : effect.Reply} (open_ : NeverClosed spec) (hooked : Hooked world)
    (answered : world.answer (spec process) effect choice = some (reply, next)) : lifeReply effect reply := by
  have plain := (hooked.answer answered).1
  unfold lifeReply
  split
  · obtain ⟨⟨answer, inner⟩, said, same⟩ := Option.map_eq_some_iff.mp answered
    cases same
    exact open_ _ _ _ _ _ said
  · exact plain

/-- Drawing an id. -/
theorem LifeInvariant.draw {world : World Inner} {phases : Process → LifePhase} {process : Process}
    {later : LifePhase} (holds : LifeInvariant world phases)
    (moved : (phases process).after (.nextWaiter : Effect Value) (fetchNext world.nextWaiter).1 = some later) :
    LifeInvariant { world with nextWaiter := (fetchNext world.nextWaiter).2 }
      (Function.update phases process later) := by
  refine ⟨⟨holds.hooked.installed, holds.hooked.positive⟩, ?_⟩
  have grows : ∀ id, id < world.nextWaiter → id < (fetchNext world.nextWaiter).2 :=
    fun id below => UInt64.lt_of_lt_of_le below (le_fetchNext world.nextWaiter)
  cases fetched : (fetchNext world.nextWaiter).1 with
  | none =>
    rw [fetched] at moved
    obtain rfl := Option.some.inj moved
    exact (holds.attributed.mono grows).keep rfl rfl
  | some id =>
    rw [fetched] at moved
    obtain ⟨rfl, above⟩ := fetchNext_some fetched
    simp only [LifePhase.after, LifePhase.draw] at moved
    split at moved
    · next fresh =>
      obtain rfl := Option.some.inj moved
      exact holds.attributed.draw fresh.1 (UInt64.lt_irrefl _) rfl fresh.2 grows above
    · cases moved

/-- Reporting an event. -/
theorem LifeInvariant.say {world : World Inner} {phases : Process → LifePhase} {process : Process}
    {later : LifePhase} {event : Event} (holds : LifeInvariant world phases)
    (moved : (phases process).say event = some later) :
    LifeInvariant { world with trace := world.trace ++ [event] } (Function.update phases process later) := by
  refine ⟨⟨holds.hooked.installed, holds.hooked.positive⟩, ?_⟩
  cases owned : lifecycleId event with
  | none =>
    simp only [LifePhase.say, owned] at moved
    obtain rfl := Option.some.inj moved
    exact (holds.attributed.note owned).keep rfl rfl
  | some id =>
    simp only [LifePhase.say, owned] at moved
    split at moved
    · next named =>
      obtain rfl := Option.some.inj moved
      exact holds.attributed.write named owned named rfl
    · cases moved

/-- Every effect keeps the invariant. -/
theorem life_keeps (open_ : NeverClosed spec) :
    (futureSystem spec).Keeps (lifeProtocol Value) LifeInvariant := by
  intro world phases process effect choice reply next holds answered
  refine ⟨life_possible open_ holds.hooked answered, fun later _ moved => ?_⟩
  have hooked := (holds.hooked.answer answered).2
  cases effect with
  | nextWaiter =>
    cases answered
    exact holds.draw moved
  | report event =>
    cases answered
    exact holds.say moved
  | tokio call =>
    obtain ⟨⟨reply', inner⟩, -, same⟩ := Option.map_eq_some_iff.mp answered
    cases same
    obtain rfl := Option.some.inj moved
    exact ⟨hooked, holds.attributed.keep rfl rfl⟩
  | compareExchange atomic expected new =>
    obtain rfl := Option.some.inj moved
    simp only [futureSystem, runtimeSystem, World.answer] at answered
    split at answered <;> cases answered <;> exact ⟨hooked, holds.attributed.keep rfl rfl⟩
  | panic message => cases answered
  | newAtomic | load | fetchAdd | newFlag | swapFlag | nextResource | hook =>
    cases answered
    obtain rfl := Option.some.inj moved
    exact ⟨hooked, holds.attributed.keep rfl rfl⟩

/-- All futures are still to be made, a hook is installed and nothing was reported. -/
structure LifeStart (world : World Inner) : Prop where
  hooked : Hooked world
  silent : world.trace = []

abbrev LifeConfig (Value Process Inner : Type) :=
  System.Config (Effect Value) Effect.Reply Process FutureState (World Inner)

def LifeReaches (spec : Process → Inner → (call : Tokio Value) → Choice → Option (call.Reply × Inner))
    (world : World Inner) (final : LifeConfig Value Process Inner) : Prop :=
  ∃ actions, run? (futureSystem spec).step ⟨world, fun _ => .done .unborn⟩ actions = some final

theorem life_invariant_of_run {world : World Inner} {final : LifeConfig Value Process Inner}
    (open_ : NeverClosed spec) (start : LifeStart world) (reached : LifeReaches spec world final) :
    ∃ phases : Process → LifePhase, System.Phased (lifeProtocol Value)
      (fun later state => later.Rest state) LifeInvariant final phases := by
  obtain ⟨actions, reached⟩ := reached
  have initially : LifeInvariant world fun _ : Process => ({} : LifePhase) := by
    refine ⟨start.hooked, nofun, nofun, nofun, fun event member => ?_⟩
    rw [start.silent] at member
    cases member
  have unborn : System.Phased (lifeProtocol Value) (fun later state => later.Rest state) LifeInvariant
      (⟨world, fun _ => .done .unborn⟩ : LifeConfig Value Process Inner) fun _ => {} :=
    ⟨initially, fun _ => Program.conforms_done.mpr ⟨rfl, rfl⟩⟩
  exact System.phases_of_run (fun _ _ _ _ _ started rest => futureStart_conforms started rest)
    (life_keeps open_) unborn reached

end Runs

/-- Every lifecycle event is a step of the lifecycle. -/
theorem stages_of_owned {events : List Event} (owned : ∀ event ∈ events, lifecycleId event ≠ none) :
    events.map lifecycleStage = (events.filterMap lifecycleStage).map some := by
  induction events with
  | nil => rfl
  | cons event rest ih =>
    have onward := ih fun other member => owned other (List.mem_cons_of_mem _ member)
    have isOwned := owned event List.mem_cons_self
    cases event <;> first | exact absurd rfl isOwned | exact congrArg (some _ :: ·) onward

/-- The steps that a trace shows under an id. -/
def lifecycleOf (waiter : UInt64) (trace : List Event) : List (Option Stage) :=
  (under lifecycleId waiter trace).map lifecycleStage

theorem lifecycleOf_said {phase : LifePhase} {waiter : UInt64} {trace : List Event}
    (own : under lifecycleId waiter trace = phase.said) : lifecycleOf waiter trace = phase.word.map some := by
  rw [lifecycleOf, stages_of_owned, own, LifePhase.word]
  intro event member unowned
  have isOwn := (List.mem_filter.mp member).2
  rw [unowned] at isOwn
  cases isOwn

section Grammar

variable [DecidableEq Process] {world : World Inner} {final : LifeConfig Value Process Inner}
  {spec : Process → Inner → (call : Tokio Value) → Choice → Option (call.Reply × Inner)}

/-- **The lifecycle grammar.** Any number of futures are made, polled and dropped in any interleaving, over
any tokio. Under the id of a future that was dropped the trace holds exactly the word of its polls: nothing,
resolved, requested and resolved, or requested and dropped; and no two futures share an id. -/
theorem lifecycle_grammar (open_ : NeverClosed spec) (start : LifeStart world)
    (reached : LifeReaches spec world final) :
    (∀ process waiter polls kept, final.program process = .done (.gone waiter polls kept) →
      lifecycleOf waiter final.shared.trace = (finalWord polls).map some) ∧
    (∀ process future polls kept, final.program process = .done (.live future polls kept) →
      lifecycleOf future.core.waiter final.shared.trace = (aliveWord polls).map some) ∧
    ∀ process other state state' waiter polls polls', final.program process = .done state →
      final.program other = .done state' → state.life = some (waiter, polls) →
        state'.life = some (waiter, polls') → process = other := by
  obtain ⟨phases, invariant, conform⟩ := life_invariant_of_run open_ start reached
  have rests : ∀ process state, final.program process = .done state → (phases process).Rest state := by
    intro process state idle
    simpa only [idle, Program.conforms_done] using conform process
  have named : ∀ process state waiter polls, final.program process = .done state →
      state.life = some (waiter, polls) → (phases process).id = some waiter := by
    intro process state waiter polls idle isLife
    have rest := rests process state idle
    cases state with
    | live future polls kept =>
      cases isLife
      exact rest.named
    | gone waiter polls kept =>
      cases isLife
      exact rest.1
    | unborn | elsewhere => cases isLife
  refine ⟨fun process waiter polls kept idle => ?_, fun process future polls kept idle => ?_, ?_⟩
  · obtain ⟨isNamed, word⟩ := rests process _ idle
    rw [lifecycleOf_said (invariant.attributed.own process waiter isNamed), word]
  · obtain ⟨isNamed, -, -, word⟩ := rests process _ idle
    rw [lifecycleOf_said (invariant.attributed.own process _ isNamed), word]
  · intro process other state state' waiter polls polls' idle idle' isLife isLife'
    exact invariant.attributed.distinct process other waiter (named process state waiter polls idle isLife)
      (named other state' waiter polls' idle' isLife')

/-- One lock future is ready at its first poll; another one waits and is cancelled. -/
def cancelledRun : List (System.Action Bool (FutureOperation Unit) Bool) :=
  List.flatten [[.start false (.lock ⟨0, 0⟩)], List.replicate 5 (.advance false true),
    [.start true (.lock ⟨0, 0⟩)], List.replicate 3 (.advance true true), [.start false .poll],
    List.replicate 3 (.advance false true), [.start true .poll], List.replicate 3 (.advance true false),
    [.start true .drop, .start false .drop, .advance false true], List.replicate 3 (.advance true true)]

theorem exclusiveLock_neverClosed :
    NeverClosed (exclusiveLock .mutex : Bool → Holders Bool → (call : Tokio Unit) → Bool → _) := nofun

theorem lifecycle_grammar_cancelled :
    ∃ final : LifeConfig Unit Bool (Holders Bool), LifeReaches (exclusiveLock .mutex) { inner := [] } final ∧
      final.shared.trace = [.acquired 1 1 .mutex, .requested 1 2 .mutex, .waiterDropped 1 2] ∧
      lifecycleOf 1 final.shared.trace = [some .resolved] ∧
      lifecycleOf 2 final.shared.trace = [some .requested, some .dropped] := by
  have reached : LifeReaches (exclusiveLock .mutex) { inner := [] } _ := ⟨cancelledRun, rfl⟩
  obtain ⟨grammar, -, -⟩ := lifecycle_grammar exclusiveLock_neverClosed ⟨⟨rfl, by decide⟩, rfl⟩ reached
  exact ⟨_, reached, rfl, grammar false 1 ⟨false, true⟩ _ rfl, grammar true 2 ⟨true, false⟩ _ rfl⟩

end Grammar

end Laplace.Soundness
