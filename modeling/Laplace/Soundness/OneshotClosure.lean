import Laplace.Model.OneshotRuns
import Laplace.Soundness.ChannelClosure

/-! # Closure of a oneshot channel

The sender reports one end, whatever becomes of it: the outcome of its `send`, or its drop. A receiver that is told
that the channel is closed was told so for a reason that the trace shows: the sender was dropped, the receiver
closed the channel, or the value was already received.
-/

namespace Laplace.Soundness

open Laplace.Machine Laplace.Model Laplace.Model.Runtime

variable {Value : Type} {resource : UInt64}

inductive OneshotNote where
  | sent
  | senderDropped
  | received
  | denied
  | closed
  | other
deriving DecidableEq, Repr

def oneshotEventNote : Event → OneshotNote
  | .channelOpResolved _ _ .send _ => .sent
  | .channelEndpointDropped _ .sender => .senderDropped
  | .channelOpResolved _ _ .recv .ok => .received
  | .channelOpResolved _ _ .recv .closed => .denied
  | .channelClosed _ => .closed
  | _ => .other

/-- The note of an event of this channel. -/
def oneshotNote (resource : UInt64) (event : Event) : OneshotNote :=
  if event.resource = resource then oneshotEventNote event else .other

theorem oneshotNote_own {event : Event} (own : event.resource = resource) :
    oneshotNote resource event = oneshotEventNote event := if_pos own

/-- How often the trace tells something. -/
def oneshotNoted (resource : UInt64) (note : OneshotNote) (trace : List Event) : ℕ :=
  trace.countP fun event => oneshotNote resource event = note

theorem oneshotNoted_append (note : OneshotNote) (trace : List Event) (event : Event) :
    oneshotNoted resource note (trace ++ [event]) =
      oneshotNoted resource note trace + if oneshotNote resource event = note then 1 else 0 := by
  simp only [oneshotNoted, List.countP_append, List.countP_singleton, decide_eq_true_eq]

/-- What a tokio call did to the channel. -/
inductive OneshotAct where
  | send
  | dropSender
  | take
  | deny
  | close
  | dropReceiver
  | nothing
deriving DecidableEq, Repr

def oneshotActOf : (call : Tokio Value) → call.Reply → OneshotAct
  | .oneshotSend .., _ => .send
  | .dropEndpoint .oneshotSender _, _ => .dropSender
  | .dropEndpoint .oneshotReceiver _, _ => .dropReceiver
  | .oneshotTryRecv _, .ok _ | .oneshotPoll _, .ready (.ok _) => .take
  | .oneshotTryRecv _, .error .closed | .oneshotPoll _, .ready (.error _) => .deny
  | .oneshotClose _, _ => .close
  | _, _ => .nothing

/-- Where the sender or the receiver stands. -/
inductive OneshotPhase where
  | fresh
  /-- The value was handed to tokio, and the outcome is not reported. -/
  | answered
  /-- The drop is reported and not done. -/
  | leaving
  | ended
  | idle
  | received
  | denied
  | closing
deriving DecidableEq, Repr

namespace OneshotPhase

def isSender : OneshotPhase → Bool
  | .fresh | .answered | .leaving | .ended => true
  | _ => false

/-- One while the end of the sender is still to be reported. -/
def unreported : OneshotPhase → ℕ
  | .fresh | .answered => 1
  | _ => 0

def act : OneshotPhase → OneshotAct → Option OneshotPhase
  | .fresh, .send => some .answered
  | .leaving, .dropSender => some .ended
  | .idle, .take => some .received
  | .idle, .deny => some .denied
  | .idle, .close => some .closing
  | .idle, .dropReceiver => some .idle
  | .idle, .nothing => some .idle
  | _, _ => none

def say : OneshotPhase → OneshotNote → Option OneshotPhase
  | .answered, .sent => some .ended
  | .fresh, .senderDropped => some .leaving
  | .received, .received => some .idle
  | .denied, .denied => some .idle
  | .closing, .closed => some .idle
  | .idle, .other => some .idle
  | _, _ => none

def after (resource : UInt64) (phase : OneshotPhase) : (effect : Effect Value) → effect.Reply → Option OneshotPhase
  | .tokio call, reply => phase.act (oneshotActOf call reply)
  | .report event, _ => phase.say (oneshotNote resource event)
  | _, _ => some phase

/-- The phase that suits a side between two operations. -/
def Rest (resource : UInt64) (phase : OneshotPhase) : OneshotUse → Prop
  | .sender sender => phase = .fresh ∧ sender.resource = resource ∧ ∃ inner, sender.inner = some inner
  | .receiver receiver => phase = .idle ∧ receiver.resource = resource
  | .gone => phase = .ended ∨ phase = .idle

end OneshotPhase

def oneshotProtocol (Value : Type) (resource : UInt64) : Protocol (Effect Value) Effect.Reply OneshotPhase where
  possible := hookedReply
  after phase := phase.after resource

section Conformance

variable {α : Type} {phase : OneshotPhase}

abbrev OneshotConforms (resource : UInt64) (rest : OneshotPhase → α → Prop) (phase : OneshotPhase)
    (program : RuntimeM Value α) : Prop := program.Conforms (oneshotProtocol Value resource) rest phase

theorem oneshot_ignores (Value : Type) (resource : UInt64) (phase : OneshotPhase) :
    Ignores (oneshotProtocol Value resource) phase := by
  intro effect books
  cases effect
  case load | compareExchange | nextResource | hook | panic => exact ⟨trivial, fun _ _ => rfl⟩
  all_goals cases books

/-- A report moves as its note says. -/
theorem oneshot_report {event : Event} {later : OneshotPhase} (own : event.resource = resource)
    (moved : phase.say (oneshotEventNote event) = some later) :
    OneshotConforms resource (fun after _ => after = later) phase (report event : RuntimeM Value Unit) := by
  refine ⟨trivial, fun _ _ => ⟨later, ?_, rfl⟩⟩
  change phase.say (oneshotNote resource event) = some later
  rw [oneshotNote_own own, moved]

theorem oneshot_withHook {slot : HookSlot} {reports : RuntimeM Value Unit} {rest : OneshotPhase → Unit → Prop}
    (conforms : OneshotConforms resource rest phase reports) :
    OneshotConforms resource rest phase (withHook slot reports) := by
  refine Program.conforms_perform_bind.mpr ⟨trivial, fun installed isInstalled => ⟨phase, rfl, ?_⟩⟩
  obtain rfl : installed = true := isInstalled
  exact conforms

/-- A report through the hook, and what comes after it. -/
theorem oneshot_reported {slot : HookSlot} {event : Event} {later : OneshotPhase} {rest : OneshotPhase → α → Prop}
    {second : Unit → RuntimeM Value α} (own : event.resource = resource)
    (moved : phase.say (oneshotEventNote event) = some later)
        (onward : OneshotConforms resource rest later (second ())) :
    OneshotConforms resource rest phase (withHook slot (report event) >>= second) := by
  refine Program.Conforms.bind (oneshot_withHook (oneshot_report own moved)) ?_
  rintro _ _ rfl
  exact onward

/-- A tokio call moves as its act says. -/
theorem oneshot_tokio {call : Tokio Value} (moves : ∀ reply, ∃ later,
    phase.act (oneshotActOf call reply) = some later) :
    OneshotConforms resource (fun later reply => phase.act (oneshotActOf call reply) = some later) phase
      (tokio call) := by
  refine ⟨trivial, fun reply _ => ?_⟩
  obtain ⟨later, moved⟩ := moves reply
  exact ⟨later, moved, moved⟩

/-- Drawing an id moves nothing. -/
theorem oneshot_nextWaiter :
    OneshotConforms resource (fun later _ => later = phase) phase
      (nextAsyncLockWaiterId (pure ()) : RuntimeM Value UInt64) := by
  refine nextWaiter_conforms ⟨trivial, fun id _ => ⟨phase, rfl, ?_⟩⟩ (oneshot_ignores Value resource phase).unwound
  cases id <;> rfl

/-- An operation that never waits: what tokio did is reported under a fresh id. -/
theorem oneshot_resolveNow {kind : AsyncChannelOp} {call : Tokio Value} {outcome : call.Reply → AsyncChannelOutcome}
    {later : OneshotPhase}
    (answered : ∀ op reply, ∃ middle, phase.act (oneshotActOf call reply) = some middle ∧
      middle.say (oneshotEventNote (.channelOpResolved resource op kind (outcome reply))) = some later) :
    OneshotConforms resource (fun after _ => after = later) phase (resolveNow resource kind outcome (tokio call)) := by
  refine (oneshot_tokio fun reply => (answered 0 reply).imp fun _ moved => moved.1).bind ?_
  intro middle reply moved
  refine oneshot_nextWaiter.bind ?_
  rintro _ op rfl
  obtain ⟨middle', moved', noted⟩ := answered op reply
  obtain rfl := Option.some.inj (moved.symm.trans moved')
  exact oneshot_reported rfl noted rfl

end Conformance

section Methods

/-- The sender is dropped unused. -/
theorem oneshotDrop_conforms {sender : Oneshot.Sender} {inner : Handle} (own : sender.resource = resource)
    (whole : sender.inner = some inner) :
    OneshotConforms resource (fun after _ => after = .ended) .fresh (sender.drop : RuntimeM Value Unit) := by
  simp only [Oneshot.Sender.drop, whole]
  exact oneshot_reported own rfl ⟨trivial, fun _ _ => ⟨.ended, rfl, rfl⟩⟩

/-- A sender that has sent is not reported dropped. -/
theorem oneshotSend_conforms {sender : Oneshot.Sender} {inner : Handle} (own : sender.resource = resource)
    (whole : sender.inner = some inner) (value : Value) :
    OneshotConforms resource (fun after _ => after = .ended) .fresh (sender.send value) := by
  subst own
  simp only [Oneshot.Sender.send, whole]
  refine (oneshot_resolveNow fun op reply => ⟨.answered, rfl, rfl⟩).bind ?_
  rintro _ result rfl
  exact rfl

variable {receiver : Awaiting}

theorem oneshotTryRecv_conforms (own : receiver.resource = resource) :
    OneshotConforms resource (fun after _ => after = .idle) .idle
      (Oneshot.Receiver.tryRecv receiver : RuntimeM Value (Except OneshotTryRecvError Value)) := by
  subst own
  refine oneshot_resolveNow fun op reply => ?_
  rcases reply with (_ | _) | value
  · exact ⟨.idle, rfl, rfl⟩
  · exact ⟨.denied, rfl, rfl⟩
  · exact ⟨.received, rfl, rfl⟩

theorem oneshotClose_conforms (own : receiver.resource = resource) :
    OneshotConforms resource (fun after _ => after = .idle) .idle
      (Oneshot.Receiver.close receiver : RuntimeM Value Unit) := by
  refine (oneshot_tokio fun _ => ⟨.closing, rfl⟩).bind ?_
  rintro _ _ ⟨⟩
  exact oneshot_withHook (oneshot_report own rfl)

theorem oneshotPoll_conforms (own : receiver.resource = resource) :
    OneshotConforms resource (fun after answer => after = .idle ∧ answer.2.resource = resource) .idle
      (Oneshot.Receiver.poll receiver : RuntimeM Value (Poll (Except Unit Value) × Awaiting)) := by
  have moves : ∀ reply : Poll (Except Unit Value), ∃ later,
      OneshotPhase.idle.act (oneshotActOf (.oneshotPoll receiver.inner : Tokio Value) reply) = some later := by
    rintro (_ | _ | _) <;> exact ⟨_, rfl⟩
  refine (oneshot_tokio moves).bind ?_
  rintro middle (_ | _ | value) ⟨⟩
  · dsimp only
    split
    · exact ⟨rfl, own⟩
    · exact oneshot_reported own rfl ⟨rfl, own⟩
  · exact oneshot_reported own rfl ⟨rfl, own⟩
  · exact oneshot_reported own rfl ⟨rfl, own⟩

theorem oneshotReceiverDrop_conforms (own : receiver.resource = resource) :
    OneshotConforms resource (fun after _ => after = .idle) .idle
      (Oneshot.Receiver.drop receiver : RuntimeM Value Unit) := by
  have reported : OneshotConforms resource (fun after _ => after = .idle) .idle
      (report (.channelEndpointDropped receiver.resource .receiver) : RuntimeM Value Unit) := oneshot_report own rfl
  have reports : OneshotConforms resource (fun after _ => after = .idle) .idle (do
      if receiver.requestedEmitted && !receiver.resolved then
        report (.channelOpDropped receiver.resource receiver.waiter)
      report (.channelEndpointDropped receiver.resource .receiver) : RuntimeM Value Unit) := by
    split
    · refine Program.Conforms.bind (oneshot_report own rfl) ?_
      rintro _ _ rfl
      exact reported
    · exact reported
  refine (oneshot_withHook reports).bind ?_
  rintro _ _ rfl
  exact ⟨trivial, fun _ _ => ⟨.idle, rfl, rfl⟩⟩

/-- Every operation conforms. -/
theorem oneshotStart_conforms {use : OneshotUse} {operation : OneshotOperation Value}
    {program : RuntimeM Value OneshotUse}
    {phase : OneshotPhase} (started : oneshotStart use operation = some program) (rest : phase.Rest resource use) :
    OneshotConforms resource (fun later use => later.Rest resource use) phase program := by
  cases use with
  | gone => cases operation <;> cases started
  | sender sender =>
    obtain ⟨rfl, own, inner, whole⟩ := rest
    cases operation <;> cases started
    case sender.send.refl value => exact (oneshotSend_conforms own whole value).bind fun _ _ ended => .inl ended
    case sender.drop.refl => exact (oneshotDrop_conforms own whole).bind fun _ _ ended => .inl ended
  | receiver receiver =>
    obtain ⟨rfl, own⟩ := rest
    cases operation with
    | send value => cases started
    | drop =>
      cases started
      exact (oneshotReceiverDrop_conforms own).bind fun _ _ idle => .inr idle
    | tryRecv =>
      cases started
      exact (oneshotTryRecv_conforms own).bind fun _ _ idle => ⟨idle, own⟩
    | close =>
      cases started
      exact (oneshotClose_conforms own).bind fun _ _ idle => ⟨idle, own⟩
    | poll =>
      simp only [oneshotStart] at started
      split at started
      · cases started
      · cases started
        exact (oneshotPoll_conforms own).bind fun _ _ moved => moved

end Methods

/-- What an act does to tokio's channel. -/
def OneshotActs (state next : OneshotState) : OneshotAct → Prop
  | .send | .dropReceiver | .nothing =>
      ∃ stored receiverDropped, next = { state with stored, receiverDropped }
  | .dropSender => next = { state with senderDropped := true }
  | .take => next = { state with stored := false, taken := true }
  | .deny => state.ended = true ∧ next = state
  | .close => next = { state with closed := true }

theorem oneshotChannel_acts {state next : OneshotState} {call : Tokio Value} {choice : OneshotAnswer Value}
    {reply : call.Reply} (answered : oneshotChannel state call choice = some (reply, next)) :
    OneshotActs state next (oneshotActOf call reply) := by
  unfold oneshotChannel at answered
  split at answered
  all_goals first
    | cases answered
      first | exact ⟨_, _, rfl⟩ | exact rfl
    | obtain ⟨allowed, rfl, rfl⟩ := allow_eq_some answered
      first | exact ⟨_, _, rfl⟩ | exact ⟨allowed, rfl⟩ | exact rfl
    | cases answered

/-- Whenever a receive is reported closed and none was reported to have got the value, the trace before it shows that
the sender was dropped or that the channel was closed. -/
def OneshotExplained (resource : UInt64) : List Event → Prop :=
  Throughout fun before event => oneshotNote resource event = .denied → oneshotNoted resource .received before = 0 →
    oneshotNoted resource .senderDropped before ≠ 0 ∨ oneshotNoted resource .closed before ≠ 0

/-- What holds between tokio's channel, the trace and the phases of the two sides. -/
structure OneshotInvariant (resource : UInt64) (state : OneshotState) (trace : List Event)
    (sender receiver : OneshotPhase) : Prop where
  sends : sender.isSender = true
  receives : receiver.isSender = false
  once : oneshotNoted resource .sent trace + oneshotNoted resource .senderDropped trace + sender.unreported = 1
  dropped : state.senderDropped = true ∨ sender = .leaving → oneshotNoted resource .senderDropped trace ≠ 0
  closed : state.closed = true → oneshotNoted resource .closed trace ≠ 0 ∨ receiver = .closing
  taken : state.taken = true → oneshotNoted resource .received trace ≠ 0 ∨ receiver = .received
  denied : receiver = .denied → oneshotNoted resource .received trace = 0 →
    oneshotNoted resource .senderDropped trace ≠ 0 ∨ oneshotNoted resource .closed trace ≠ 0
  explained : OneshotExplained resource trace

namespace OneshotInvariant

variable {state next : OneshotState} {trace : List Event} {sender receiver later : OneshotPhase}

/-- Acts of the sender. -/
theorem sender_act (invariant : OneshotInvariant resource state trace sender receiver) {act : OneshotAct}
    (moved : sender.act act = some later) (acts : OneshotActs state next act) :
    OneshotInvariant resource next trace later receiver := by
  obtain ⟨sends, receives, once, dropped, closed, taken, denied, explained⟩ := invariant
  cases sender <;> cases act <;> cases moved
  case fresh.send =>
    obtain ⟨stored, receiverDropped, rfl⟩ := acts
    exact ⟨rfl, receives, once, fun gone => dropped (gone.imp id nofun), closed, taken, denied, explained⟩
  case leaving.dropSender =>
    cases acts
    exact ⟨rfl, receives, once, fun _ => dropped (.inr rfl), closed, taken, denied, explained⟩
  all_goals cases sends

/-- Acts of the receiver. -/
theorem receiver_act (invariant : OneshotInvariant resource state trace sender receiver) {act : OneshotAct}
    (moved : receiver.act act = some later) (acts : OneshotActs state next act) :
    OneshotInvariant resource next trace sender later := by
  obtain ⟨sends, receives, once, dropped, closed, taken, denied, explained⟩ := invariant
  cases receiver <;> cases act <;> cases moved
  case idle.take =>
    cases acts
    exact ⟨sends, rfl, once, dropped, fun isClosed => (closed isClosed).imp id nofun, fun _ => .inr rfl, nofun,
        explained⟩
  case idle.deny =>
    obtain ⟨ended, rfl⟩ := acts
    refine ⟨sends, rfl, once, dropped, fun isClosed => (closed isClosed).imp id nofun,
      fun isTaken => (taken isTaken).imp id nofun, fun _ untaken => ?_, explained⟩
    -- the answer was true, and nobody but the receiver itself could still be about to report why
    rw [OneshotState.ended, Bool.or_eq_true, Bool.or_eq_true] at ended
    rcases ended with (isDropped | isClosed) | isTaken
    · exact .inl (dropped (.inl isDropped))
    · exact .inr ((closed isClosed).resolve_right nofun)
    · exact absurd untaken ((taken isTaken).resolve_right nofun)
  case idle.close =>
    cases acts
    exact ⟨sends, rfl, once, dropped, fun _ => .inr rfl, fun isTaken => (taken isTaken).imp id nofun, nofun,
        explained⟩
  case idle.dropReceiver | idle.nothing =>
    obtain ⟨stored, receiverDropped, rfl⟩ := acts
    exact ⟨sends, rfl, once, dropped, closed, taken, nofun, explained⟩
  all_goals cases receives

/-- Reports of the sender. -/
theorem sender_note (invariant : OneshotInvariant resource state trace sender receiver) {event : Event}
    (moved : sender.say (oneshotNote resource event) = some later) :
    OneshotInvariant resource state (trace ++ [event]) later receiver := by
  obtain ⟨sends, receives, once, dropped, closed, taken, denied, explained⟩ := invariant
  have counts (note : OneshotNote) : oneshotNoted resource note (trace ++ [event]) =
    oneshotNoted resource note trace + if oneshotNote resource event = note then 1 else 0 :=
        oneshotNoted_append note trace event
  have explained' : oneshotNote resource event ≠ .denied → OneshotExplained resource (trace ++ [event]) :=
    fun undenied => Throughout.append explained fun isDenied => absurd isDenied undenied
  cases isNote : oneshotNote resource event <;> rw [isNote] at moved counts explained' <;> cases sender <;> cases moved
  case sent.answered =>
    simp only [OneshotPhase.unreported] at once
    refine ⟨rfl, receives, ?_, ?_, ?_, ?_, ?_, explained' nofun⟩ <;>
      simp only [counts, OneshotPhase.unreported, reduceCtorEq, if_true, if_false, Nat.add_zero, or_false]
    · omega
    · exact fun isDropped => dropped (.inl isDropped)
    · exact closed
    · exact taken
    · exact denied
  case senderDropped.fresh =>
    simp only [OneshotPhase.unreported] at once
    refine ⟨rfl, receives, ?_, ?_, ?_, ?_, ?_, explained' nofun⟩ <;>
      simp only [counts, OneshotPhase.unreported, reduceCtorEq, if_true, if_false, Nat.add_zero]
    · omega
    · omega
    · exact closed
    · exact taken
    · omega
  all_goals cases sends

/-- Reports of the receiver. -/
theorem receiver_note (invariant : OneshotInvariant resource state trace sender receiver) {event : Event}
    (moved : receiver.say (oneshotNote resource event) = some later) :
    OneshotInvariant resource state (trace ++ [event]) sender later := by
  obtain ⟨sends, receives, once, dropped, closed, taken, denied, explained⟩ := invariant
  have counts (note : OneshotNote) : oneshotNoted resource note (trace ++ [event]) =
    oneshotNoted resource note trace + if oneshotNote resource event = note then 1 else 0 :=
        oneshotNoted_append note trace event
  have explained' : (oneshotNote resource event = .denied → receiver = .denied) →
      OneshotExplained resource (trace ++ [event]) :=
    fun wasDenied => Throughout.append explained fun isDenied => denied (wasDenied isDenied)
  cases isNote : oneshotNote resource event <;> rw [isNote] at moved counts explained' <;> cases receiver <;> cases moved
  case received.received =>
    refine ⟨sends, rfl, ?_, ?_, ?_, ?_, nofun, explained' nofun⟩ <;>
      simp only [counts, reduceCtorEq, if_true, if_false, Nat.add_zero, or_false]
    · exact once
    · exact dropped
    · exact fun isClosed => (closed isClosed).resolve_right nofun
    · omega
  case denied.denied =>
    refine ⟨sends, rfl, ?_, ?_, ?_, ?_, nofun, explained' fun _ => rfl⟩ <;>
      simp only [counts, reduceCtorEq, if_false, Nat.add_zero, or_false]
    · exact once
    · exact dropped
    · exact fun isClosed => (closed isClosed).resolve_right nofun
    · exact fun isTaken => (taken isTaken).resolve_right nofun
  case closed.closing =>
    refine ⟨sends, rfl, ?_, ?_, ?_, ?_, nofun, explained' nofun⟩ <;>
      simp only [counts, reduceCtorEq, if_true, if_false, Nat.add_zero, or_false]
    · exact once
    · exact dropped
    · omega
    · exact fun isTaken => (taken isTaken).resolve_right nofun
  case other.idle =>
    refine ⟨sends, rfl, ?_, ?_, ?_, ?_, nofun, explained' nofun⟩ <;>
      simp only [counts, reduceCtorEq, if_false, Nat.add_zero, or_false]
    · exact once
    · exact dropped
    · exact fun isClosed => (closed isClosed).resolve_right nofun
    · exact fun isTaken => (taken isTaken).resolve_right nofun
  all_goals cases receives

end OneshotInvariant

section Runs

/-- A new channel: a sender, its receiver, a hook installed, and nothing reported. -/
structure OneshotStart (world : World OneshotState) : Prop where
  hooked : Hooked world
  silent : world.trace = []
  channel : world.inner = {}

theorem OneshotStart.invariant {world : World OneshotState} (start : OneshotStart world) :
    OneshotInvariant resource world.inner world.trace .fresh .idle := by
  rw [start.silent, start.channel]
  exact ⟨rfl, rfl, rfl, nofun, nofun, nofun, nofun, throughout_nil _⟩

abbrev OneshotConfig (Value : Type) :=
  System.Config (Effect Value) Effect.Reply OneshotSide OneshotUse (World OneshotState)

def oneshotInitial (resource : UInt64) (sender receiver : Handle) (op : UInt64) (world : World OneshotState) :
    OneshotConfig Value :=
  ⟨world, fun
    | .sender => .done (.sender { inner := some sender, resource })
    | .receiver => .done (.receiver { resource, waiter := op, inner := receiver })⟩

variable {sender receiver : Handle} {op : UInt64} {world : World OneshotState} {final : OneshotConfig Value}
  {actions : List (System.Action OneshotSide (OneshotOperation Value) (OneshotAnswer Value))}

/-- The invariant, of a world and the phases of the two sides. -/
def OneshotHolds (resource : UInt64) (world : World OneshotState) (phases : OneshotSide → OneshotPhase) : Prop :=
  Hooked world ∧ OneshotInvariant resource world.inner world.trace (phases .sender) (phases .receiver)

theorem oneshot_keeps (Value : Type) (resource : UInt64) :
    (oneshotSystem Value).Keeps (oneshotProtocol Value resource) (OneshotHolds resource) := by
  rintro world phases side effect choice reply next ⟨hooked, invariant⟩ answered
  obtain ⟨isPossible, hooked'⟩ := hooked.answer answered
  refine ⟨isPossible, fun later _ moved => ⟨hooked', ?_⟩⟩
  cases effect with
  | tokio call =>
    obtain ⟨⟨reply', inner⟩, inChannel, same⟩ := Option.map_eq_some_iff.mp answered
    cases same
    have acts := oneshotChannel_acts inChannel
    cases side with
    | sender => exact invariant.sender_act moved acts
    | receiver => exact invariant.receiver_act moved acts
  | report event =>
    cases answered
    cases side with
    | sender => exact invariant.sender_note moved
    | receiver => exact invariant.receiver_note moved
  | compareExchange atomic expected new =>
    cases moved
    simp only [Function.update_eq_self]
    simp only [oneshotSystem, runtimeSystem, World.answer] at answered
    split at answered <;> cases answered <;> exact invariant
  | panic message => cases answered
  | newAtomic | load | fetchAdd | newFlag | swapFlag | nextResource | nextWaiter | hook =>
    cases moved
    cases answered
    simp only [Function.update_eq_self]
    exact invariant

theorem oneshot_of_run (start : OneshotStart world)
    (reached : run? (oneshotSystem Value).step (oneshotInitial resource sender receiver op world) actions = some final) :
    ∃ phases, OneshotHolds resource final.shared phases := by
  have unused : System.Phased (oneshotProtocol Value resource) (fun later use => later.Rest resource use)
      (OneshotHolds resource) (oneshotInitial resource sender receiver op world : OneshotConfig Value)
      (fun | .sender => .fresh | .receiver => .idle) := by
    refine ⟨⟨start.hooked, start.invariant⟩, fun side => ?_⟩
    cases side with
    | sender => exact Program.conforms_done.mpr ⟨rfl, rfl, sender, rfl⟩
    | receiver => exact Program.conforms_done.mpr ⟨rfl, rfl⟩
  obtain ⟨phases, holds, -⟩ := System.phases_of_run (fun _ _ _ _ _ started rest => oneshotStart_conforms started rest)
    (oneshot_keeps Value resource) unused reached
  exact ⟨phases, holds⟩

/-- A receive that is denied is explained, and the end of the sender is reported at most once. -/
theorem oneshot_closure_explained (start : OneshotStart world)
    (reached : run? (oneshotSystem Value).step (oneshotInitial resource sender receiver op world) actions = some final) :
    OneshotExplained resource final.shared.trace ∧
      oneshotNoted resource .sent final.shared.trace + oneshotNoted resource .senderDropped final.shared.trace ≤ 1 := by
  obtain ⟨phases, -, invariant⟩ := oneshot_of_run start reached
  refine ⟨invariant.explained, ?_⟩
  have once := invariant.once
  omega

/-- **Closed is always explained by the trace**, for every flavour of channel and every interleaving of its uses. -/
theorem closed_is_explained (Value : Type) :
    (∀ (Process : Type) [Fintype Process] [DecidableEq Process] (flavor : ChannelFlavor) (resource : UInt64)
      (receiver : Process) (shared : ChannelWorld Process) (final : ChannelConfig Value Process),
      ChannelStart shared → ChannelReaches flavor resource receiver shared final →
        Explained flavor resource final.shared.world.trace ∧
        ∀ part, part <+: final.shared.world.trace →
          noted flavor resource .dropped part ≤ 1 + noted flavor resource .cloned part) ∧
    ∀ (resource : UInt64) (sender receiver : Handle) (op : UInt64) (world : World OneshotState) (actions : List _)
      (final : OneshotConfig Value),
      OneshotStart world →
      run? (oneshotSystem Value).step (oneshotInitial resource sender receiver op world) actions = some final →
        OneshotExplained resource final.shared.trace ∧
        oneshotNoted resource .sent final.shared.trace + oneshotNoted resource .senderDropped final.shared.trace ≤ 1 :=
  ⟨fun _ _ _ _ _ _ _ _ start reached => channel_closure_explained start reached,
    fun _ _ _ _ _ _ _ start reached => oneshot_closure_explained start reached⟩

/-- Use `1` clones the first sender, `2` and `3` drop the two, and then the receiver is told of the closure. -/
def forsakenRun : List (System.Action (Fin 4) (ChannelOperation Unit (Fin 4)) (ChannelAnswer Unit)) :=
  List.flatten [[.start 1 (.clone {} none)], List.replicate 6 (.advance 1 .wait), [.start 2 (.dropSender {} none)],
    List.replicate 4 (.advance 2 .wait), [.start 3 (.dropSender {} (some 1))], List.replicate 4 (.advance 3 .wait),
    [.start 0 (.tryRecv {})], List.replicate 4 (.advance 0 .closed)]

/-- The oneshot sender is dropped, and then the receiver is told of it. -/
def abandonedRun : List (System.Action OneshotSide (OneshotOperation Unit) (OneshotAnswer Unit)) :=
  List.flatten [[.start .sender .drop], List.replicate 3 (.advance .sender .wait), [.start .receiver .tryRecv],
    List.replicate 4 (.advance .receiver .closed)]

theorem closed_is_explained_forsaken :
    (∃ final, ChannelReaches .bounded 7 (0 : Fin 4) { world := { inner := {} } } (final : ChannelConfig Unit (Fin 4)) ∧
      final.shared.world.trace = [.channelEndpointCloned 7 .sender, .channelEndpointDropped 7 .sender,
        .channelEndpointDropped 7 .sender, .channelOpResolved 7 1 .recv .closed] ∧
      Explained .bounded 7 final.shared.world.trace) ∧
    ∃ final, run? (oneshotSystem Unit).step (oneshotInitial 7 0 1 1 { inner := {}, nextWaiter := 2 }) abandonedRun =
        some final ∧
      final.shared.trace = [.channelEndpointDropped 7 .sender, .channelOpResolved 7 2 .recv .closed] ∧
      OneshotExplained 7 final.shared.trace := by
  refine ⟨?_, ?_⟩
  · have reached : ChannelReaches .bounded 7 (0 : Fin 4) { world := { inner := {} } } (_ : ChannelConfig Unit (Fin 4)) :=
      ⟨forsakenRun, rfl⟩
    refine ⟨_, reached, rfl, ?_⟩
    exact ((closed_is_explained Unit).1 _ _ _ _ _ _ ⟨⟨rfl, by decide⟩, rfl, rfl, rfl, rfl⟩ reached).1
  · have reached : run? (oneshotSystem Unit).step (oneshotInitial 7 0 1 1 { inner := {}, nextWaiter := 2 })
        abandonedRun = some _ := rfl
    refine ⟨_, reached, rfl, ?_⟩
    exact ((closed_is_explained Unit).2 _ _ _ _ _ _ _ ⟨⟨rfl, by decide⟩, rfl, rfl⟩ reached).1

end Runs

end Laplace.Soundness
