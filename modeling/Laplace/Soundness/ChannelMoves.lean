import Laplace.Model.ChannelRuns
import Laplace.Soundness.RuntimeRuns

/-! # What a use of a channel can do

Every effect of a channel's methods is one of few moves: an act of tokio's channel, a note in the trace, or
a change of ownership. A stage says where a use stands between its acts and its notes. The methods of all four
flavours conform to these stages; the results about closure and about causes follow from the moves alone.
-/

namespace Laplace.Soundness

open Laplace.Machine Laplace.Model Laplace.Model.Runtime

variable {Value Process : Type}

/-- What an event tells about the channel. -/
inductive Note where
  | cloned
  | dropped
  | sent
  | refused
  | received
  | denied
  | closed
  | receiverDropped
  | other
deriving DecidableEq, Repr

/-- `Send` and the receiver's end are followed for `mpsc` only. -/
def eventNote (flavor : ChannelFlavor) : Event → Note
  | .channelEndpointCloned _ .sender | .broadcastEndpointCloned _ .sender _ => .cloned
  | .channelEndpointDropped _ .sender | .broadcastEndpointDropped _ .sender _ => .dropped
  | .channelEndpointDropped _ .receiver => if flavor.isMpsc then .receiverDropped else .other
  | .channelOpResolved _ _ .send .ok => if flavor.isMpsc then .sent else .other
  | .channelOpResolved _ _ .send .closed => if flavor.isMpsc then .refused else .other
  | .channelOpResolved _ _ .recv .ok => .received
  | .channelOpResolved _ _ .recv .closed | .channelOpResolved _ _ .changed .closed => .denied
  | .broadcastOpResolved _ _ _ .recv .closed | .broadcastOpResolved _ _ _ .tryRecv .closed => .denied
  | .channelClosed _ => .closed
  | _ => .other

/-- The note of an event of this channel. -/
def noteOf (flavor : ChannelFlavor) (resource : UInt64) (event : Event) : Note :=
  if event.resource = resource then eventNote flavor event else .other

theorem noteOf_own {flavor : ChannelFlavor} {resource : UInt64} {event : Event} (own : event.resource = resource) :
    noteOf flavor resource event = eventNote flavor event := if_pos own

/-- What a tokio call did to the channel. -/
inductive Act where
  | clone
  | drop
  | dropReceiver
  | accept
  | refuse
  | deliver
  | deny
  | close
  | nothing
deriving DecidableEq, Repr

def actOf : (call : Tokio Value) → call.Reply → Act
  | .cloneEndpoint endpoint _, _ => if endpoint.isSender then .clone else .nothing
  | .dropEndpoint endpoint _, _ =>
      if endpoint.isSender then .drop else if endpoint.isMpscReceiver then .dropReceiver else .nothing
  | .poll .send _, .ready (.ok _) | .trySend .., .ok _ | .unboundedSend .., .ok _ => .accept
  | .poll .send _, .ready (.error _) | .trySend .., .error (.closed _) | .unboundedSend .., .error _ => .refuse
  | .poll .recv _, .ready (some _) | .tryRecv _, .ok _ | .unboundedTryRecv _, .ok _ => .deliver
  | .poll .recv _, .ready none | .tryRecv _, .error .disconnected | .unboundedTryRecv _, .error .disconnected
  | .poll .changed _, .ready (.error _) | .poll .broadcastRecv _, .ready (.error .closed)
  | .broadcastTryRecv _, .error .closed => .deny
  | .close _, _ | .unboundedClose _, _ => .close
  | _, _ => .nothing

/-- Where a use stands. -/
inductive ChannelStage (Process : Type) where
  | idle
  /-- The source is borrowed. -/
  | cloning (source : SenderName Process)
  /-- The clone is made and not reported. -/
  | copied
  /-- The clone is reported and not made. -/
  | promised (source : SenderName Process)
  /-- The clone is made and reported. -/
  | owned
  | taken
  /-- The drop is reported and not done. -/
  | leaving
  | accepted
  | refused
  | received
  | denied
  | closing
  /-- The drop of the receiver is reported and not done. -/
  | departing
deriving DecidableEq

structure ChannelPhase (Process : Type) where
  stage : ChannelStage Process := .idle
  spent : Bool := false
  isReceiver : Bool

namespace ChannelStage

def act : ChannelStage Process → Act → Option (ChannelStage Process)
  | .cloning _, .clone => some .copied
  | .promised _, .clone => some .owned
  | .leaving, .drop => some .idle
  | .departing, .dropReceiver => some .idle
  | .idle, .accept => some .accepted
  | .idle, .refuse => some .refused
  | .idle, .deliver => some .received
  | .idle, .deny => some .denied
  | .idle, .close => some .closing
  | .idle, .nothing => some .idle
  | _, _ => none

def say : ChannelStage Process → Note → Option (ChannelStage Process)
  | .copied, .cloned => some .owned
  | .cloning source, .cloned => some (.promised source)
  | .taken, .dropped => some .leaving
  | .accepted, .sent => some .idle
  | .refused, .refused => some .idle
  | .received, .received => some .idle
  | .denied, .denied => some .idle
  | .closing, .closed => some .idle
  | .idle, .receiverDropped => some .departing
  | .idle, .other => some .idle
  | _, _ => none

/-- The sender that the use borrows. -/
def source : ChannelStage Process → Option (SenderName Process)
  | .cloning source | .promised source => some source
  | _ => none

/-- One for a real sender that is in the hands of the method. -/
def real : ChannelStage Process → ℕ
  | .copied | .owned | .taken | .leaving => 1
  | _ => 0

/-- One for a sender in the hands of the method that the trace shows. -/
def shown : ChannelStage Process → ℕ
  | .promised _ | .owned | .taken => 1
  | _ => 0

end ChannelStage

namespace ChannelPhase

variable (phase : ChannelPhase Process)

/-- The phase with another stage. -/
def move (stage : ChannelStage Process) : ChannelPhase Process := { phase with stage }

def own : Ownership Process → Option (ChannelPhase Process)
  | .borrow source =>
      match phase.stage with
      | .idle => some (phase.move (.cloning source))
      | _ => none
  | .release =>
      match phase.stage with
      | .owned => some phase
      | _ => none
  | .take _ =>
      match phase.stage with
      | .idle => some (phase.move .taken)
      | _ => none
  | .put =>
      match phase.stage, phase.spent with
      | .owned, false => some { phase with stage := .idle, spent := true }
      | _, _ => none

def after (flavor : ChannelFlavor) (resource : UInt64) :
    (effect : OwnedEffect Value Process) → OwnedReply effect → Option (ChannelPhase Process)
  | .inl (.tokio call), reply => (phase.stage.act (actOf call reply)).map phase.move
  | .inl (.report event), _ => (phase.stage.say (noteOf flavor resource event)).map phase.move
  | .inl _, _ => some phase
  | .inr effect, _ => phase.own effect

end ChannelPhase

/-- The calls of the `mpsc` receiver. -/
def receiving : Tokio Value → Bool
  | .poll .recv _ | .tryRecv _ | .unboundedTryRecv _ | .close _ | .unboundedClose _ => true
  | _ => false

/-- The calls that wait for a sender. -/
def awaiting : Tokio Value → Bool
  | .poll .changed _ | .poll .broadcastRecv _ | .broadcastTryRecv _ => true
  | _ => false

/-- The receiver's calls are made by the receiver, and a use whose outcome is still to be reported makes no
other call. -/
def channelPermits (flavor : ChannelFlavor) (phase : ChannelPhase Process) : OwnedEffect Value Process → Prop
  | .inl (.tokio call) => phase.stage ≠ .accepted ∧ phase.stage ≠ .closing ∧
      (receiving call = true → flavor.isMpsc = true ∧ phase.isReceiver = true) ∧
      (awaiting call = true → flavor.isMpsc = false)
  | _ => True

def channelProtocol (Value : Type) (flavor : ChannelFlavor) (resource : UInt64) :
    Protocol (OwnedEffect Value Process) OwnedReply (ChannelPhase Process) where
  permits := channelPermits flavor
  possible
    | .inl effect, reply => hookedReply effect reply
    | .inr _, _ => True
  after phase := phase.after flavor resource

/-- What suits the future of a use. -/
def FutureFits (flavor : ChannelFlavor) (resource : UInt64) (isReceiver : Bool) : ChannelFuture → Prop
  | .send future => flavor = .bounded ∧ future.resource = resource
  | .recv future => flavor.isMpsc = true ∧ isReceiver = true ∧ future.resource = resource
  | .changed future => flavor = .watch ∧ future.resource = resource
  | .broadcastRecv future => flavor = .broadcast ∧ future.resource = resource

/-- The phase that suits a use between two operations. -/
structure ChannelRest (flavor : ChannelFlavor) (resource : UInt64) (phase : ChannelPhase Process) (use : ChannelUse) :
    Prop where
  idle : phase.stage = .idle
  role : phase.isReceiver = use.isReceiver
  fresh : use.spent = false → phase.spent = false
  future : ∀ future, use.future = some future → FutureFits flavor resource use.isReceiver future

section Conformance

variable {flavor : ChannelFlavor} {resource : UInt64} {α : Type}

/-- What the methods of the runtime do in a channel run. -/
abbrev MoveConforms (flavor : ChannelFlavor) (resource : UInt64) (rest : ChannelPhase Process → α → Prop)
    (phase : ChannelPhase Process) (program : RuntimeM Value α) : Prop :=
  program.Conforms (channelProtocol Value flavor resource).left rest phase

variable {phase : ChannelPhase Process}

theorem move_ignores (Value : Type) (flavor : ChannelFlavor) (resource : UInt64) (phase : ChannelPhase Process) :
    Ignores (channelProtocol Value flavor resource).left phase := by
  intro effect books
  cases effect
  case load | compareExchange | nextResource | hook | panic => exact ⟨trivial, fun _ _ => rfl⟩
  all_goals cases books

/-- A tokio call, by what it does. -/
theorem tokio_moves {call : Tokio Value} (permitted : channelPermits flavor phase (.inl (.tokio call)))
    (moves : ∀ reply, ∃ stage, phase.stage.act (actOf call reply) = some stage) :
    MoveConforms flavor resource (fun later reply => ∃ stage, phase.stage.act (actOf call reply) = some stage ∧
      later = phase.move stage) phase (tokio call) := by
  refine ⟨permitted, fun reply _ => ?_⟩
  obtain ⟨stage, moved⟩ := moves reply
  exact ⟨phase.move stage, congrArg (Option.map phase.move) moved, stage, moved, rfl⟩

/-- A report, by its note. -/
theorem report_moves {event : Event} {stage : ChannelStage Process}
    (moved : phase.stage.say (noteOf flavor resource event) = some stage) :
    MoveConforms flavor resource (fun later _ => later = phase.move stage) phase (report event : RuntimeM Value Unit) :=
  ⟨trivial, fun _ _ => ⟨phase.move stage, congrArg (Option.map phase.move) moved, rfl⟩⟩

/-- The hook is installed, so that reports are made. -/
theorem withHook_moves {slot : HookSlot} {reports : RuntimeM Value Unit} {rest : ChannelPhase Process → Unit → Prop}
    (conforms : MoveConforms flavor resource rest phase reports) :
    MoveConforms flavor resource rest phase (withHook slot reports) := by
  refine Program.conforms_perform_bind.mpr ⟨trivial, fun installed isInstalled => ⟨phase, rfl, ?_⟩⟩
  obtain rfl : installed = true := isInstalled
  exact conforms

/-- Drawing an id moves nothing. -/
theorem nextWaiter_moves {unwind : RuntimeM Value Unit}
    (unwinds : MoveConforms flavor resource
      (fun later _ => Ignores (channelProtocol Value flavor resource).left later) phase unwind) :
    MoveConforms flavor resource (fun later _ => later = phase) phase (nextAsyncLockWaiterId unwind) := by
  refine nextWaiter_conforms ⟨trivial, fun id _ => ⟨phase, rfl, ?_⟩⟩ unwinds
  cases id <;> rfl

end Conformance

section Methods

variable {flavor : ChannelFlavor} {resource : UInt64} {α : Type} {spent isReceiver : Bool}

/-- A phase between an act and its note, or between two operations. -/
abbrev standing (stage : ChannelStage Process) (spent isReceiver : Bool) : ChannelPhase Process :=
  { stage, spent, isReceiver }

/-- A program that a use can run without a move. -/
def Quiet (Process : Type) (flavor : ChannelFlavor) (resource : UInt64) (program : RuntimeM Value α) : Prop :=
  ∀ spent isReceiver,
    MoveConforms flavor resource (fun later _ => later = (standing .idle spent isReceiver : ChannelPhase Process))
      (standing .idle spent isReceiver) program

theorem Quiet.bind {β : Type} {first : RuntimeM Value β} {second : β → RuntimeM Value α}
    (quiet : Quiet Process flavor resource first)
    (onward : ∀ value, Quiet Process flavor resource (second value)) :
        Quiet Process flavor resource (first >>= second) := by
  intro spent isReceiver
  refine (quiet spent isReceiver).bind ?_
  rintro _ value rfl
  exact onward value spent isReceiver

theorem quiet_done (value : α) : Quiet Process flavor resource (.done value : RuntimeM Value α) := fun _ _ => rfl

/-- In which stages tokio is called. -/
theorem call_permitted {stage : ChannelStage Process} {call : Tokio Value}
    (free : stage ≠ .accepted ∧ stage ≠ .closing)
    (receives : receiving call = true → flavor.isMpsc = true ∧ isReceiver = true)
    (awaits : awaiting call = true → flavor.isMpsc = false) :
    channelPermits flavor (standing stage spent isReceiver) (.inl (.tokio call)) := ⟨free.1, free.2, receives, awaits⟩

/-- Calls that leave the channel as it is. -/
theorem quiet_tokio {call : Tokio Value} (nothing : ∀ reply, actOf call reply = .nothing)
    (receives : receiving call = false) (awaits : awaiting call = false) :
        Quiet Process flavor resource (tokio call) := by
  intro spent isReceiver
  have permitted : channelPermits flavor (standing .idle spent isReceiver : ChannelPhase Process) (.inl (.tokio call)) :=
    call_permitted ⟨nofun, nofun⟩ (by rw [receives]; nofun) (by rw [awaits]; nofun)
  refine (tokio_moves permitted fun reply => ⟨.idle, ?_⟩).mono fun later reply ⟨stage, moved, same⟩ => ?_
  · rw [nothing reply]
    rfl
  · rw [nothing reply] at moved
    cases moved
    exact same

theorem quiet_report {event : Event} (own : event.resource = resource) (other : eventNote flavor event = .other) :
    Quiet Process flavor resource (report event : RuntimeM Value Unit) := by
  intro spent isReceiver
  refine report_moves ?_
  rw [noteOf_own own, other]
  rfl

theorem quiet_withHook {slot : HookSlot} {reports : RuntimeM Value Unit}
    (quiet : Quiet Process flavor resource reports) :
    Quiet Process flavor resource (withHook slot reports) :=
  fun spent isReceiver => withHook_moves (quiet spent isReceiver)

theorem quiet_nextWaiter {unwind : RuntimeM Value Unit} (quiet : Quiet Process flavor resource unwind) :
    Quiet Process flavor resource (nextAsyncLockWaiterId unwind) := by
  intro spent isReceiver
  refine nextWaiter_moves ((quiet spent isReceiver).mono ?_)
  rintro _ _ rfl
  exact move_ignores Value flavor resource _

/-- Dropping a future. -/
theorem quiet_drop {kind : Awaitable} {slot : HookSlot} {dropped : Event} {future : Awaiting}
    (own : dropped.resource = resource) (other : eventNote flavor dropped = .other) :
    Quiet Process flavor resource (future.drop kind slot dropped : RuntimeM Value Unit) := by
  have ends : Quiet Process flavor resource (tokio (.dropFuture kind future.inner) : RuntimeM Value Unit) :=
    quiet_tokio (fun _ => rfl) rfl rfl
  unfold Awaiting.drop
  split
  · exact (quiet_withHook (quiet_report own other)).bind fun _ => ends
  · exact ends

/-- The effects on the wrapper's atomics. -/
theorem quiet_fetchAdd (atomic : Handle) (amount : UInt64) :
    Quiet Process flavor resource (perform (.fetchAdd atomic amount) : RuntimeM Value UInt64) :=
        fun _ _ => ⟨trivial, fun _ _ => ⟨_, rfl, rfl⟩⟩

theorem quiet_load (atomic : Handle) : Quiet Process flavor resource (perform (.load atomic) : RuntimeM Value UInt64) :=
  fun _ _ => ⟨trivial, fun _ _ => ⟨_, rfl, rfl⟩⟩

/-- What tokio's answer to a call does, and the note about it, come back to where the use was. -/
def Answered (Process : Type) (flavor : ChannelFlavor) (call : Tokio Value) (event : call.Reply → Event) : Prop :=
  ∀ reply : call.Reply, ∃ stage : ChannelStage Process,
    ChannelStage.act .idle (actOf call reply) = some stage ∧ stage.say (eventNote flavor (event reply)) = some .idle

/-- The report that ends an operation. -/
theorem report_back {slot : HookSlot} {event : Event} {stage : ChannelStage Process} (own : event.resource = resource)
    (noted : stage.say (eventNote flavor event) = some .idle) :
    MoveConforms flavor resource (fun later _ => later = standing .idle spent isReceiver)
      (standing stage spent isReceiver) (withHook slot (report event) : RuntimeM Value Unit) := by
  have said : (standing stage spent isReceiver).stage.say (noteOf flavor resource event) = some .idle := by
    rw [noteOf_own own]
    exact noted
  exact withHook_moves (report_moves said)

/-- An operation that never waits. -/
theorem quiet_resolveNow {kind : AsyncChannelOp} {call : Tokio Value} {outcome : call.Reply → AsyncChannelOutcome}
    (receives : receiving call = true → flavor.isMpsc = true ∧ isReceiver = true)
    (awaits : awaiting call = true → flavor.isMpsc = false)
    (answered : ∀ op, Answered Process flavor call fun reply => .channelOpResolved resource op kind (outcome reply)) :
    MoveConforms flavor resource (fun later _ => later = (standing .idle spent isReceiver : ChannelPhase Process))
      (standing .idle spent isReceiver) (resolveNow resource kind outcome (tokio call)) := by
  have permitted : channelPermits flavor (standing .idle spent isReceiver : ChannelPhase Process) (.inl (.tokio call)) :=
    call_permitted ⟨nofun, nofun⟩ receives awaits
  refine (tokio_moves permitted fun reply => ?_).bind ?_
  · obtain ⟨stage, moved, -⟩ := answered 0 reply
    exact ⟨stage, moved⟩
  rintro _ reply ⟨stage, moved, rfl⟩
  refine (nextWaiter_moves (move_ignores Value flavor resource _).unwound).bind ?_
  rintro _ op rfl
  obtain ⟨stage', moved', noted⟩ := answered op reply
  obtain rfl := Option.some.inj (moved.symm.trans moved')
  refine (report_back rfl noted).bind ?_
  rintro _ _ rfl
  rfl

/-- A poll: a ready answer is noted, a pending one at most announced. -/
theorem poll_moves {kind : Awaitable} {slot : HookSlot} {requested : Event}
    {resolved : kind.Output Value → Event} {future : Awaiting}
    (receives : receiving (.poll kind future.inner : Tokio Value) = true → flavor.isMpsc = true ∧ isReceiver = true)
    (awaits : awaiting (.poll kind future.inner : Tokio Value) = true → flavor.isMpsc = false)
    (waits : actOf (.poll kind future.inner : Tokio Value) .pending = .nothing)
    (ownRequest : requested.resource = resource) (isRequest : eventNote flavor requested = .other)
    (own : ∀ value, (resolved value).resource = resource)
    (answered : ∀ value, ∃ stage : ChannelStage Process,
      ChannelStage.act .idle (actOf (.poll kind future.inner : Tokio Value) (.ready value)) = some stage ∧
        stage.say (eventNote flavor (resolved value)) = some .idle) :
    MoveConforms flavor resource
      (fun later result => later = (standing .idle spent isReceiver : ChannelPhase Process) ∧
        result.2.resource = future.resource)
      (standing .idle spent isReceiver)
      (future.poll (tokio (.poll kind future.inner)) (fun event => withHook slot (report event)) requested
        fun value => some (resolved value) : RuntimeM Value (Poll (kind.Output Value) × Awaiting)) := by
  have permitted : channelPermits flavor (standing .idle spent isReceiver : ChannelPhase Process)
      (.inl (.tokio (.poll kind future.inner : Tokio Value))) := call_permitted ⟨nofun, nofun⟩ receives awaits
  refine (tokio_moves permitted fun reply => ?_).bind ?_
  · cases reply with
    | pending => exact ⟨.idle, by rw [waits]; rfl⟩
    | ready value => exact ⟨(answered value).choose, (answered value).choose_spec.1⟩
  rintro _ reply ⟨stage, moved, rfl⟩
  cases reply with
  | pending =>
    rw [waits] at moved
    cases moved
    rcases Bool.eq_false_or_eq_true future.requestedEmitted with emitted | silent
    · rw [if_pos emitted]
      exact ⟨rfl, rfl⟩
    · rw [if_neg (by rw [silent]; decide)]
      refine (quiet_withHook (quiet_report ownRequest isRequest) spent isReceiver).bind ?_
      rintro _ _ rfl
      exact ⟨rfl, rfl⟩
  | ready value =>
    obtain ⟨stage', moved', noted⟩ := answered value
    obtain rfl := Option.some.inj (moved.symm.trans moved')
    refine (report_back (own value) noted).bind ?_
    rintro _ _ rfl
    exact ⟨rfl, rfl⟩

/-- A call that moves a use from one stage to another. -/
theorem call_moves {call : Tokio Value} {stage later : ChannelStage Process}
    (moves : ∀ reply, stage.act (actOf call reply) = some later) (free : stage ≠ .accepted ∧ stage ≠ .closing)
    (receives : receiving call = true → flavor.isMpsc = true ∧ isReceiver = true)
    (awaits : awaiting call = true → flavor.isMpsc = false) :
    MoveConforms flavor resource (fun after _ => after = standing later spent isReceiver)
      (standing stage spent isReceiver) (tokio call) := by
  refine (tokio_moves (call_permitted free receives awaits) fun reply => ⟨later, moves reply⟩).mono ?_
  rintro _ reply ⟨stage', moved, rfl⟩
  obtain rfl := Option.some.inj ((moves reply).symm.trans moved)
  rfl

/-- A report that moves a use from one stage to another. -/
theorem say_moves {slot : HookSlot} {event : Event} {stage later : ChannelStage Process}
    (own : event.resource = resource) (moves : stage.say (eventNote flavor event) = some later) :
    MoveConforms flavor resource (fun after _ => after = standing later spent isReceiver)
      (standing stage spent isReceiver) (withHook slot (report event) : RuntimeM Value Unit) := by
  have said : (standing stage spent isReceiver).stage.say (noteOf flavor resource event) = some later := by
    rw [noteOf_own own]
    exact moves
  exact withHook_moves (report_moves said)

variable (self : ChannelSelf)

/-- The clone of a sender of `mpsc` or `watch`: made, then reported. -/
theorem cloneEnd_moves {endpoint : Endpoint} (isSender : endpoint.isSender = true) (source : SenderName Process) :
    MoveConforms flavor resource (fun later _ => later = standing .owned spent isReceiver)
      (standing (.cloning source) spent isReceiver)
      ((self.channelEnd resource).clone endpoint .sender : RuntimeM Value ChannelEnd) := by
  have made : ∀ reply, ChannelStage.act (.cloning source)
      (actOf (.cloneEndpoint endpoint (self.channelEnd resource).inner : Tokio Value) reply) = some .copied := by
    intro reply
    simp only [actOf, isSender, if_true]
    rfl
  have reported : ChannelStage.say (.copied : ChannelStage Process)
      (eventNote flavor (.channelEndpointCloned (self.channelEnd resource).resource .sender)) = some .owned := rfl
  refine (call_moves made ⟨nofun, nofun⟩ nofun nofun).bind ?_
  rintro _ cloned rfl
  refine (say_moves rfl reported).bind ?_
  rintro _ _ rfl
  rfl

/-- The drop of an endpoint of `mpsc` or `watch`: reported, then done. -/
theorem dropEnd_moves {endpoint : Endpoint} {side : AsyncChannelSide} {first middle last : ChannelStage Process}
    (reported : first.say (eventNote flavor (.channelEndpointDropped resource side)) = some middle)
    (free : middle ≠ .accepted ∧ middle ≠ .closing)
    (dropped : middle.act (actOf (.dropEndpoint endpoint self.inner : Tokio Value) ()) = some last) :
    MoveConforms flavor resource (fun later _ => later = standing last spent isReceiver)
      (standing first spent isReceiver) ((self.channelEnd resource).drop endpoint side : RuntimeM Value Unit) := by
  refine Program.Conforms.bind (say_moves rfl reported) ?_
  rintro _ _ rfl
  exact call_moves (fun _ => dropped) free nofun nofun

/-- A clone makes the sender and reports it, or the other way round. -/
theorem cloneSender_moves (source : SenderName Process) :
    MoveConforms flavor resource (fun later _ => later = standing .owned spent isReceiver)
      (standing (.cloning source) spent isReceiver) (flavor.cloneSender self resource : RuntimeM Value Unit) := by
  cases flavor with
  | bounded | unbounded | watch => exact (cloneEnd_moves self rfl source).bind fun _ _ same => same
  | broadcast =>
    have reported : ChannelStage.say (.cloning source)
        (eventNote .broadcast (.broadcastEndpointCloned resource .sender none)) = some (.promised source) := rfl
    have made : ∀ reply, ChannelStage.act (.promised source)
        (actOf (.cloneEndpoint .broadcastSender self.inner : Tokio Value) reply) = some .owned := fun _ => rfl
    refine Program.Conforms.bind (Program.Conforms.bind (say_moves rfl reported) ?_) fun _ _ same => same
    rintro _ _ rfl
    exact (call_moves made ⟨nofun, nofun⟩ nofun nofun).bind fun _ _ same => same

/-- A sender reports its drop before it is dropped. -/
theorem dropSender_moves :
    MoveConforms flavor resource (fun later _ => later = (standing .idle spent isReceiver : ChannelPhase Process))
      (standing .taken spent isReceiver) (flavor.dropSender self resource : RuntimeM Value Unit) := by
  cases flavor with
  | bounded | unbounded | watch => exact dropEnd_moves self rfl ⟨nofun, nofun⟩ rfl
  | broadcast =>
    have reported : ChannelStage.say (.taken : ChannelStage Process)
        (eventNote .broadcast (.broadcastEndpointDropped resource .sender none)) = some .leaving := rfl
    have made : ∀ reply, ChannelStage.act (.leaving : ChannelStage Process)
        (actOf (.dropEndpoint .broadcastSender self.inner : Tokio Value) reply) = some .idle := fun _ => rfl
    refine (say_moves rfl reported).bind ?_
    rintro _ _ rfl
    exact call_moves made ⟨nofun, nofun⟩ nofun nofun

/-- Forgetting what a call returned. -/
theorem quiet_discard {call : RuntimeM Value α} (quiet : Quiet Process flavor resource call) :
    Quiet Process flavor resource (discard call) := quiet.bind fun _ => quiet_done _

theorem sendNow_moves (value : Value) : Quiet Process flavor resource (flavor.sendNow self resource value) := by
  cases flavor with
  | bounded =>
    refine quiet_discard fun spent isReceiver => quiet_resolveNow nofun nofun fun op reply => ?_
    rcases reply with (_ | _) | _
    · exact ⟨.idle, rfl, rfl⟩
    · exact ⟨.refused, rfl, rfl⟩
    · exact ⟨.accepted, rfl, rfl⟩
  | unbounded =>
    refine quiet_discard fun spent isReceiver => quiet_resolveNow nofun nofun fun op reply => ?_
    rcases reply with _ | _
    · exact ⟨.refused, rfl, rfl⟩
    · exact ⟨.accepted, rfl, rfl⟩
  | watch =>
    refine quiet_discard fun spent isReceiver => quiet_resolveNow nofun nofun fun op reply => ?_
    rcases reply with _ | _ <;> exact ⟨.idle, rfl, rfl⟩
  | broadcast =>
    refine quiet_discard ((quiet_nextWaiter (quiet_done ())).bind fun op => ?_)
    refine Quiet.bind ?_ fun _ => ?_
    · exact quiet_withHook (quiet_report rfl rfl)
    refine Quiet.bind ?_ fun reply => ?_
    · exact quiet_tokio (fun _ => rfl) rfl rfl
    have reports : Quiet Process .broadcast resource (withHook .broadcast (report
        (.broadcastOpResolved resource op none .send (Broadcast.sendOutcome reply))) : RuntimeM Value Unit) := by
      cases reply <;> exact quiet_withHook (quiet_report rfl rfl)
    cases reply with
    | ok count => exact (quiet_discard (quiet_fetchAdd _ _)).bind fun _ => reports.bind fun _ => quiet_done _
    | error value => exact reports.bind fun _ => quiet_done _

/-- The calls of a receiver that never wait. -/
theorem tryRecv_moves {program : RuntimeM Value Unit} (isCall : flavor.tryRecv self resource = some program)
    (receives : flavor.isMpsc = true → isReceiver = true) :
    MoveConforms flavor resource (fun later _ => later = (standing .idle spent isReceiver : ChannelPhase Process))
      (standing .idle spent isReceiver) program := by
  cases flavor with
  | bounded | unbounded =>
    obtain rfl := Option.some.inj isCall
    refine Program.Conforms.bind (quiet_resolveNow (fun _ => ⟨rfl, receives rfl⟩) nofun fun op reply => ?_)
      fun _ _ same => same
    rcases reply with (_ | _) | _
    · exact ⟨.idle, rfl, rfl⟩
    · exact ⟨.denied, rfl, rfl⟩
    · exact ⟨.received, rfl, rfl⟩
  | watch => cases isCall
  | broadcast =>
    obtain rfl := Option.some.inj isCall
    refine Program.Conforms.bind ((quiet_nextWaiter (quiet_done ()) spent isReceiver).bind ?_) fun _ _ same => same
    rintro _ op rfl
    have permitted : channelPermits .broadcast (standing .idle spent isReceiver : ChannelPhase Process)
        (.inl (.tokio (.broadcastTryRecv self.inner : Tokio Value))) :=
      call_permitted ⟨nofun, nofun⟩ nofun fun _ => rfl
    have answered : Answered Process .broadcast (.broadcastTryRecv self.inner : Tokio Value) fun reply =>
        .broadcastOpResolved resource op (some self.receiverId) .tryRecv (Broadcast.tryRecvOutcome reply) := by
      rintro ((_ | _ | _) | _)
      · exact ⟨.idle, rfl, rfl⟩
      · exact ⟨.denied, rfl, rfl⟩
      · exact ⟨.idle, rfl, rfl⟩
      · exact ⟨.idle, rfl, rfl⟩
    refine (tokio_moves permitted fun reply => ⟨_, (answered reply).choose_spec.1⟩).bind ?_
    rintro _ reply ⟨stage, moved, rfl⟩
    obtain ⟨stage', moved', noted⟩ := answered reply
    obtain rfl := Option.some.inj (moved.symm.trans moved')
    refine Program.Conforms.bind (report_back rfl noted) ?_
    rintro _ _ rfl
    rfl

/-- `close` is forwarded, then reported. -/
theorem close_moves {program : RuntimeM Value Unit} (isCall : flavor.close self resource = some program)
    (receives : flavor.isMpsc = true → isReceiver = true) :
    MoveConforms flavor resource (fun later _ => later = (standing .idle spent isReceiver : ChannelPhase Process))
      (standing .idle spent isReceiver) program := by
  have noted : ChannelStage.say (.closing : ChannelStage Process) (eventNote flavor (.channelClosed resource)) =
      some .idle := rfl
  cases flavor with
  | bounded =>
    obtain rfl := Option.some.inj isCall
    have forwarded : ∀ reply, ChannelStage.act (.idle : ChannelStage Process)
        (actOf (.close self.inner : Tokio Value) reply) = some .closing := fun _ => rfl
    refine (call_moves forwarded ⟨nofun, nofun⟩ (fun _ => ⟨rfl, receives rfl⟩) nofun).bind ?_
    rintro _ _ rfl
    exact report_back rfl noted
  | unbounded =>
    obtain rfl := Option.some.inj isCall
    have forwarded : ∀ reply, ChannelStage.act (.idle : ChannelStage Process)
        (actOf (.unboundedClose self.inner : Tokio Value) reply) = some .closing := fun _ => rfl
    refine (call_moves forwarded ⟨nofun, nofun⟩ (fun _ => ⟨rfl, receives rfl⟩) nofun).bind ?_
    rintro _ _ rfl
    exact report_back rfl noted
  | watch | broadcast => cases isCall

theorem dropReceiver_moves :
    Quiet Process flavor resource (flavor.dropReceiver self resource : RuntimeM Value Unit) := by
  intro spent isReceiver
  cases flavor with
  | bounded | unbounded | watch => exact dropEnd_moves self rfl ⟨nofun, nofun⟩ rfl
  | broadcast =>
    refine Quiet.bind ?_ (fun _ => ?_) spent isReceiver
    · exact quiet_withHook (quiet_report rfl rfl)
    · exact quiet_tokio (fun _ => rfl) rfl rfl

/-- Dropping a broadcast receiver that could not be made. -/
theorem quiet_unwound (inner : Handle) :
    Quiet Process flavor resource (tokio (.dropEndpoint .broadcastReceiver inner) : RuntimeM Value Unit) :=
  quiet_tokio (fun _ => rfl) rfl rfl

theorem subscribe_moves {program : RuntimeM Value Unit} (isCall : flavor.subscribe self resource = some program) :
    Quiet Process flavor resource program := by
  cases flavor with
  | bounded | unbounded => cases isCall
  | watch =>
    obtain rfl := Option.some.inj isCall
    refine quiet_discard (Quiet.bind ?_ fun inner => Quiet.bind ?_ fun _ => quiet_done _)
    · exact quiet_tokio (fun _ => rfl) rfl rfl
    · exact quiet_withHook (quiet_report rfl rfl)
  | broadcast =>
    obtain rfl := Option.some.inj isCall
    refine quiet_discard (Quiet.bind ?_ fun inner => Quiet.bind (quiet_nextWaiter (quiet_unwound inner)) fun id =>
      Quiet.bind (quiet_withHook ?_) fun _ => quiet_done _)
    · exact quiet_tokio (fun _ => rfl) rfl rfl
    · refine Quiet.bind ?_ fun _ => Quiet.bind (quiet_load _) fun atSeq => ?_
      · exact quiet_report rfl rfl
      · exact quiet_report rfl rfl

theorem copyReceiver_moves {program : RuntimeM Value Unit} (isCall : flavor.copyReceiver self resource = some program) :
    Quiet Process flavor resource program := by
  cases flavor with
  | bounded | unbounded => cases isCall
  | watch =>
    obtain rfl := Option.some.inj isCall
    refine quiet_discard (Quiet.bind ?_ fun inner => Quiet.bind ?_ fun _ => quiet_done _)
    · exact quiet_tokio (fun _ => rfl) rfl rfl
    · exact quiet_withHook (quiet_report rfl rfl)
  | broadcast =>
    obtain rfl := Option.some.inj isCall
    refine quiet_discard (Quiet.bind (quiet_nextWaiter (quiet_done ())) fun op => Quiet.bind ?_ fun inner =>
      Quiet.bind (quiet_nextWaiter (quiet_unwound inner)) fun id => Quiet.bind (quiet_withHook ?_) fun _ => quiet_done _)
    · exact quiet_tokio (fun _ => rfl) rfl rfl
    · refine Quiet.bind ?_ fun _ => Quiet.bind (quiet_load _) fun atSeq => Quiet.bind ?_ fun _ => ?_
      · exact quiet_report rfl rfl
      · exact quiet_report rfl rfl
      · exact quiet_report rfl rfl

/-- Polling a future of the use. -/
theorem futurePoll_moves {future : ChannelFuture} (fits : FutureFits flavor resource isReceiver future) :
    MoveConforms flavor resource
      (fun later future => later = (standing .idle spent isReceiver : ChannelPhase Process) ∧
        FutureFits flavor resource isReceiver future)
      (standing .idle spent isReceiver) (future.poll : RuntimeM Value ChannelFuture) := by
  cases future with
  | send future =>
    obtain ⟨rfl, rfl⟩ := fits
    refine Program.Conforms.bind (poll_moves nofun nofun rfl rfl rfl (fun _ => rfl) fun value => ?_)
      fun later result same => ⟨same.1, rfl, same.2⟩
    rcases value with _ | _
    · exact ⟨.refused, rfl, rfl⟩
    · exact ⟨.accepted, rfl, rfl⟩
  | recv future =>
    obtain ⟨isMpsc, rfl, rfl⟩ := fits
    refine Program.Conforms.bind (poll_moves (fun _ => ⟨isMpsc,
        rfl⟩) nofun rfl rfl rfl (fun _ => rfl) fun value => ?_)
      fun later result same => ⟨same.1, isMpsc, rfl, same.2⟩
    rcases value with _ | _
    · exact ⟨.denied, rfl, rfl⟩
    · exact ⟨.received, rfl, rfl⟩
  | changed future =>
    obtain ⟨rfl, rfl⟩ := fits
    refine Program.Conforms.bind (poll_moves nofun (fun _ => rfl) rfl rfl rfl (fun _ => rfl) fun value => ?_)
      fun later result same => ⟨same.1, rfl, same.2⟩
    rcases value with _ | _
    · exact ⟨.denied, rfl, rfl⟩
    · exact ⟨.idle, rfl, rfl⟩
  | broadcastRecv future =>
    obtain ⟨rfl, rfl⟩ := fits
    simp only [ChannelFuture.poll, Broadcast.ModelBroadcastRecv.poll, Program.bind_bind]
    refine Program.Conforms.bind (poll_moves nofun (fun _ => rfl) rfl rfl rfl (fun _ => rfl) fun value => ?_)
      fun later result same => ⟨same.1, rfl, same.2⟩
    rcases value with (_ | _) | _
    · exact ⟨.denied, rfl, rfl⟩
    · exact ⟨.idle, rfl, rfl⟩
    · exact ⟨.idle, rfl, rfl⟩

theorem futureDrop_moves {future : ChannelFuture} (fits : FutureFits flavor resource isReceiver future) :
    Quiet Process flavor resource (future.drop : RuntimeM Value Unit) := by
  cases future with
  | send future =>
    obtain ⟨rfl, rfl⟩ := fits
    exact quiet_drop rfl rfl
  | recv future =>
    obtain ⟨-, -, rfl⟩ := fits
    exact quiet_drop rfl rfl
  | changed future =>
    obtain ⟨rfl, rfl⟩ := fits
    exact quiet_drop rfl rfl
  | broadcastRecv future =>
    obtain ⟨rfl, rfl⟩ := fits
    exact quiet_drop rfl rfl

/-- A future belongs to the channel that it is started on. -/
theorem start_fits {call : RuntimeM Value Handle} (quiet : Quiet Process flavor resource call) :
    MoveConforms flavor resource
      (fun later future => later = (standing .idle spent isReceiver : ChannelPhase Process) ∧
        future.resource = resource) (standing .idle spent isReceiver) (Awaiting.start resource call) := by
  refine (quiet_nextWaiter (quiet_done ()) spent isReceiver).bind ?_
  rintro _ waiter rfl
  refine (quiet spent isReceiver).bind ?_
  rintro _ handle rfl
  exact ⟨rfl, rfl⟩

/-- The receiving future suits the channel. -/
theorem recv_fits (receives : flavor.isMpsc = true → isReceiver = true) :
    MoveConforms flavor resource
      (fun later future => later = (standing .idle spent isReceiver : ChannelPhase Process) ∧
        FutureFits flavor resource isReceiver future)
      (standing .idle spent isReceiver) (flavor.recv self resource : RuntimeM Value ChannelFuture) := by
  cases flavor with
  | bounded | unbounded =>
    refine Program.Conforms.bind (start_fits ?_) fun later future same => ⟨same.1, rfl, receives rfl, same.2⟩
    exact quiet_tokio (fun _ => rfl) rfl rfl
  | watch =>
    refine Program.Conforms.bind (start_fits ?_) fun later future same => ⟨same.1, rfl, same.2⟩
    exact quiet_tokio (fun _ => rfl) rfl rfl
  | broadcast =>
    simp only [ChannelFlavor.recv, Broadcast.Receiver.recv, Program.bind_bind]
    refine Program.Conforms.bind (start_fits ?_) fun later future same => ⟨same.1, rfl, same.2⟩
    exact quiet_tokio (fun _ => rfl) rfl rfl

end Methods

section Starting

variable {flavor : ChannelFlavor} {resource : UInt64}

abbrev UseConforms (flavor : ChannelFlavor) (resource : UInt64) (phase : ChannelPhase Process)
    (program : OwnedRt Value Process ChannelUse) : Prop :=
  program.Conforms (channelProtocol Value flavor resource) (fun later use => ChannelRest flavor resource later use) phase

/-- A use that comes back to rest. -/
theorem rest_again {use use' : ChannelUse} {spent : Bool} (role : use'.isReceiver = use.isReceiver)
    (fresh : use'.spent = false → spent = false)
    (fits : ∀ future, use'.future = some future → FutureFits flavor resource use.isReceiver future) :
    ChannelRest flavor resource (standing .idle spent use.isReceiver : ChannelPhase Process) use' :=
  ⟨rfl, role.symm, fresh, fun future isFuture => role ▸ fits future isFuture⟩

/-- A change of ownership. -/
theorem own_conforms {α : Type} {rest : ChannelPhase Process → α → Prop} {phase later : ChannelPhase Process}
    {effect : Ownership Process} {second : Unit → OwnedRt Value Process α} (moved : phase.own effect = some later)
    (onward : (second ()).Conforms (channelProtocol Value flavor resource) rest later) :
    (own effect >>= second).Conforms (channelProtocol Value flavor resource) rest phase :=
  ⟨trivial, fun _ _ => ⟨later, moved, onward⟩⟩

/-- A call that moves nothing in the end. -/
theorem call_conforms {use : ChannelUse} {spent : Bool} {program : RuntimeM Value Unit}
    (fits : ∀ future, use.future = some future → FutureFits flavor resource use.isReceiver future)
    (conforms : MoveConforms flavor resource
      (fun later _ => later = (standing .idle spent use.isReceiver : ChannelPhase Process))
      (standing .idle spent use.isReceiver) program) :
    UseConforms flavor resource (standing .idle spent use.isReceiver : ChannelPhase Process) (use.call program) := by
  refine (Program.conforms_inject.mpr conforms).bind ?_
  rintro _ _ rfl
  exact rest_again rfl nofun fits

theorem clone_conforms {use : ChannelUse} {self : ChannelSelf} {source : SenderName Process} {isReceiver : Bool}
    (fits : ∀ future, use.future = some future → FutureFits flavor resource use.isReceiver future)
    (role : isReceiver = use.isReceiver) {program : OwnedRt Value Process ChannelUse} {spent : Bool}
    (fresh : use.spent = false → spent = false)
    (started : channelStart flavor resource use (.clone self source) = some program) :
    UseConforms flavor resource (standing .idle spent isReceiver) program := by
  subst role
  simp only [channelStart] at started
  split at started
  · cases started
  · next free =>
    obtain rfl := Option.some.inj started
    simp only [Bool.or_eq_true, not_or, Bool.not_eq_true] at free
    obtain rfl := fresh free.1
    refine own_conforms rfl (Program.Conforms.bind (Program.conforms_inject.mpr (cloneSender_moves self source)) ?_)
    rintro _ _ rfl
    exact own_conforms rfl (own_conforms rfl (rest_again rfl nofun fits))

theorem dropSender_conforms {use : ChannelUse} {self : ChannelSelf} {name : SenderName Process}
    (fits : ∀ future, use.future = some future → FutureFits flavor resource use.isReceiver future)
    {program : OwnedRt Value Process ChannelUse} {spent : Bool}
    (started : channelStart flavor resource use (.dropSender self name) = some program) :
    UseConforms flavor resource (standing .idle spent use.isReceiver) program := by
  simp only [channelStart] at started
  split at started
  · cases started
  · obtain rfl := Option.some.inj started
    refine own_conforms rfl (Program.Conforms.bind (Program.conforms_inject.mpr (dropSender_moves self)) ?_)
    rintro _ _ rfl
    exact rest_again rfl nofun fits

theorem send_conforms {use : ChannelUse} {self : ChannelSelf} {value : Value}
    {program : OwnedRt Value Process ChannelUse} {spent : Bool}
    (started : channelStart flavor resource use (.send self value) = some program) :
    UseConforms flavor resource (standing .idle spent use.isReceiver) program := by
  simp only [channelStart] at started
  split at started
  · cases started
  · next free =>
    obtain rfl := Option.some.inj started
    simp only [Bool.or_eq_true, not_or, bne_iff_ne, ne_eq, not_not] at free
    obtain ⟨-, rfl⟩ := free
    have makes : Quiet Process .bounded resource (tokio (.send self.inner value)) :=
      quiet_tokio (fun _ => rfl) rfl rfl
    refine Program.Conforms.bind (Program.conforms_inject.mpr (start_fits makes)) ?_
    rintro _ future ⟨rfl, isResource⟩
    refine rest_again rfl nofun fun other isFuture => ?_
    obtain rfl := Option.some.inj isFuture
    exact ⟨rfl, isResource⟩

/-- Every operation conforms. -/
theorem channelStart_conforms {use : ChannelUse} {operation : ChannelOperation Value Process}
    {program : OwnedRt Value Process ChannelUse} {phase : ChannelPhase Process}
    (started : channelStart flavor resource use operation = some program)
    (rest : ChannelRest flavor resource phase use) : UseConforms flavor resource phase program := by
  obtain ⟨stage, spent, isReceiver⟩ := phase
  obtain ⟨idle, role, fresh, fits⟩ := rest
  dsimp only at idle role fresh
  subst idle role
  have receives : use.receives flavor = true → flavor.isMpsc = true → use.isReceiver = true := by
    intro may isMpsc
    rwa [ChannelUse.receives, if_pos isMpsc] at may
  cases operation with
  | clone self source => exact clone_conforms fits rfl fresh started
  | dropSender self name => exact dropSender_conforms fits started
  | send self value => exact send_conforms started
  | sendNow self value =>
    simp only [channelStart] at started
    split at started
    · cases started
    · obtain rfl := Option.some.inj started
      exact call_conforms fits (sendNow_moves self value spent use.isReceiver)
  | recv self =>
    simp only [channelStart] at started
    split at started
    · next may =>
      obtain rfl := Option.some.inj started
      rw [Bool.and_eq_true] at may
      refine Program.Conforms.bind (Program.conforms_inject.mpr (recv_fits self (receives may.2))) ?_
      rintro _ future ⟨rfl, isFit⟩
      refine rest_again rfl nofun fun other isFuture => ?_
      obtain rfl := Option.some.inj isFuture
      exact isFit
    · cases started
  | tryRecv self =>
    simp only [channelStart] at started
    split at started
    · next may =>
      rw [Bool.and_eq_true] at may
      obtain ⟨call, isCall, rfl⟩ := Option.map_eq_some_iff.mp started
      exact call_conforms fits (tryRecv_moves self isCall (receives may.2))
    · cases started
  | close self =>
    simp only [channelStart] at started
    split at started
    · next may =>
      rw [Bool.and_eq_true] at may
      obtain ⟨call, isCall, rfl⟩ := Option.map_eq_some_iff.mp started
      exact call_conforms fits (close_moves self isCall (receives may.2))
    · cases started
  | dropReceiver self =>
    simp only [channelStart] at started
    split at started
    · obtain rfl := Option.some.inj started
      exact call_conforms fits (dropReceiver_moves self spent use.isReceiver)
    · cases started
  | subscribe self =>
    simp only [channelStart] at started
    split at started
    · cases started
    · obtain ⟨call, isCall, rfl⟩ := Option.map_eq_some_iff.mp started
      exact call_conforms fits (subscribe_moves self isCall spent use.isReceiver)
  | copyReceiver self =>
    simp only [channelStart] at started
    split at started
    · cases started
    · obtain ⟨call, isCall, rfl⟩ := Option.map_eq_some_iff.mp started
      exact call_conforms fits (copyReceiver_moves self isCall spent use.isReceiver)
  | poll =>
    simp only [channelStart] at started
    split at started
    · next future isFuture =>
      split at started
      · cases started
      · obtain rfl := Option.some.inj started
        refine Program.Conforms.bind (Program.conforms_inject.mpr (futurePoll_moves (fits future isFuture))) ?_
        rintro _ future ⟨rfl, isFit⟩
        refine rest_again rfl fresh fun other isOther => ?_
        obtain rfl := Option.some.inj isOther
        exact isFit
    · cases started
  | dropFuture =>
    simp only [channelStart] at started
    split at started
    · next future isFuture =>
      obtain rfl := Option.some.inj started
      refine Program.Conforms.bind (Program.conforms_inject.mpr
        (futureDrop_moves (fits future isFuture) spent use.isReceiver)) ?_
      rintro _ _ rfl
      exact rest_again rfl fresh nofun
    · cases started

end Starting

section Moves

variable [DecidableEq Process] {flavor : ChannelFlavor} {resource : UInt64}

/-- What an act does to tokio's channel, and when it can occur. -/
def Acts (process : Process) (state next : ChannelState Process) : Act → Prop
  | .clone => next = { state with senders := state.senders + 1 }
  | .drop => next = { state with senders := state.senders - 1 }
  | .dropReceiver => next = { state with receiverDropped := true }
  | .accept => next = state.accept process
  | .refuse => state.refuses = true ∧ next = state
  | .deliver => state.delivers = true ∧ next = { state with queued := state.queued - 1 }
  | .deny => state.ended = true ∧ next = state
  | .close => next = { state with closed := true }
  | .nothing => next = state

theorem allow_eq_some {α β : Type} {condition : Bool} {reply reply' : α} {state state' : β}
    (allowed : allow condition reply state = some (reply', state')) :
    condition = true ∧ reply' = reply ∧ state' = state := by
  unfold allow at allowed
  split at allowed
  · next holds =>
    obtain ⟨rfl, rfl⟩ := Prod.mk.inj (Option.some.inj allowed)
    exact ⟨holds, rfl, rfl⟩
  · cases allowed

/-- Every answer of tokio's channel is an act. -/
theorem countingChannel_acts {process : Process} {state next : ChannelState Process} {call : Tokio Value}
    {answer : ChannelAnswer Value} {reply : call.Reply}
    (answered : countingChannel process state call answer = some (reply, next)) :
    Acts process state next (actOf call reply) := by
  unfold countingChannel at answered
  split at answered
  case h_1 _ endpoint _ =>
    obtain ⟨rfl, rfl⟩ := Prod.mk.inj (Option.some.inj answered)
    cases endpoint <;> rfl
  case h_2 _ endpoint _ =>
    obtain ⟨rfl, rfl⟩ := Prod.mk.inj (Option.some.inj answered)
    cases endpoint <;> rfl
  all_goals first
    | (cases answered; rfl)
    | (obtain ⟨holds, rfl, rfl⟩ := allow_eq_some answered
       first
        | rfl
        | exact ⟨holds, rfl⟩)
    | cases answered

/-- What is left alone by a move that changes no owner. -/
structure SameOwners (shared next : ChannelWorld Process) : Prop where
  senders : next.senders = shared.senders
  borrowed : next.borrowed = shared.borrowed

/-- One move of a use: what it does to the channel, to the trace or to the owners, and where it leads. -/
inductive ChannelMove (flavor : ChannelFlavor) (resource : UInt64) (process : Process)
    (shared next : ChannelWorld Process) (phase : ChannelPhase Process) : ChannelPhase Process → Prop
  | quiet (inner : next.world.inner = shared.world.inner) (trace : next.world.trace = shared.world.trace)
      (owners : SameOwners shared next) : ChannelMove flavor resource process shared next phase phase
  | act (act : Act) (stage : ChannelStage Process) (moved : phase.stage.act act = some stage)
      (acts : Acts process shared.world.inner next.world.inner act)
      (trace : next.world.trace = shared.world.trace) (owners : SameOwners shared next)
      (closes : act = .close → flavor.isMpsc = true ∧ phase.isReceiver = true)
      (denies : act = .deny → flavor.isMpsc = true → phase.isReceiver = true) :
      ChannelMove flavor resource process shared next phase (phase.move stage)
  | note (event : Event) (stage : ChannelStage Process)
      (moved : phase.stage.say (noteOf flavor resource event) = some stage)
      (inner : next.world.inner = shared.world.inner) (trace : next.world.trace = shared.world.trace ++ [event])
      (owners : SameOwners shared next) : ChannelMove flavor resource process shared next phase (phase.move stage)
  | borrow (source : SenderName Process) (idle : phase.stage = .idle) (member : source ∈ shared.senders)
      (world : next.world = shared.world) (senders : next.senders = shared.senders)
      (borrowed : next.borrowed = Function.update shared.borrowed process (some source)) :
      ChannelMove flavor resource process shared next phase (phase.move (.cloning source))
  | release (owned : phase.stage = .owned) (world : next.world = shared.world) (senders : next.senders = shared.senders)
      (borrowed : next.borrowed = Function.update shared.borrowed process none) :
      ChannelMove flavor resource process shared next phase phase
  | take (name : SenderName Process) (idle : phase.stage = .idle) (member : name ∈ shared.senders)
      (free : ∀ other, shared.borrowed other ≠ some name) (world : next.world = shared.world)
      (senders : next.senders = shared.senders.erase name) (borrowed : next.borrowed = shared.borrowed) :
      ChannelMove flavor resource process shared next phase (phase.move .taken)
  | put (owned : phase.stage = .owned) (fresh : phase.spent = false) (world : next.world = shared.world)
      (senders : next.senders = insert (some process) shared.senders) (borrowed : next.borrowed = shared.borrowed) :
      ChannelMove flavor resource process shared next phase { phase with stage := .idle, spent := true }

/-- The calls that can be denied or close the channel. -/
theorem call_of_act {call : Tokio Value} {reply : call.Reply} :
    (actOf call reply = .close → receiving call = true) ∧
    (actOf call reply = .deny → receiving call = true ∨ awaiting call = true) := by
  unfold actOf
  split
  case h_1 _ _ endpoint _ _ => cases endpoint <;> simp [Endpoint.isSender]
  case h_2 _ _ endpoint _ _ => cases endpoint <;> simp [Endpoint.isSender, Endpoint.isMpscReceiver]
  all_goals simp [receiving, awaiting]

variable [Fintype Process]

/-- Every permitted effect is a move. -/
theorem channelMove_of_answer {shared next : ChannelWorld Process} {process : Process}
    {effect : OwnedEffect Value Process} {choice : ChannelAnswer Value} {reply : OwnedReply effect}
    {phase later : ChannelPhase Process} (answered : shared.answer process effect choice = some (reply, next))
    (permitted : channelPermits flavor phase effect) (moved : phase.after flavor resource effect reply = some later) :
    ChannelMove flavor resource process shared next phase later := by
  rcases effect with effect | effect
  · obtain ⟨⟨reply', world⟩, inWorld, same⟩ := Option.map_eq_some_iff.mp answered
    obtain ⟨rfl, rfl⟩ := Prod.mk.inj same
    cases effect with
    | tokio call =>
      obtain ⟨⟨reply'', inner⟩, spec, same⟩ := Option.map_eq_some_iff.mp inWorld
      cases same
      obtain ⟨stage, acted, rfl⟩ := Option.map_eq_some_iff.mp moved
      obtain ⟨-, -, receives, awaits⟩ := permitted
      refine .act _ stage acted (countingChannel_acts spec) rfl ⟨rfl, rfl⟩ ?_ ?_
      · exact fun closes => receives (call_of_act.1 closes)
      · intro denies isMpsc
        rcases call_of_act.2 denies with isReceiving | isAwaiting
        · exact (receives isReceiving).2
        · rw [awaits isAwaiting] at isMpsc
          cases isMpsc
    | report event =>
      cases inWorld
      obtain ⟨stage, said, rfl⟩ := Option.map_eq_some_iff.mp moved
      exact .note event stage said rfl rfl ⟨rfl, rfl⟩
    | compareExchange atomic expected new =>
      cases moved
      simp only [World.answer] at inWorld
      split at inWorld <;> cases inWorld <;> exact .quiet rfl rfl ⟨rfl, rfl⟩
    | panic message => cases inWorld
    | newAtomic | load | fetchAdd | newFlag | swapFlag | nextResource | nextWaiter | hook =>
      cases inWorld
      cases moved
      exact .quiet rfl rfl ⟨rfl, rfl⟩
  · obtain ⟨stage, spent, isReceiver⟩ := phase
    cases effect with
    | borrow source =>
      simp only [ChannelWorld.answer] at answered
      split at answered
      · next member =>
        cases answered
        cases stage <;> cases moved
        exact .borrow source rfl member rfl rfl rfl
      · cases answered
    | release =>
      cases answered
      cases stage <;> cases moved
      exact .release rfl rfl rfl rfl
    | take name =>
      simp only [ChannelWorld.answer] at answered
      split at answered
      · next free =>
        cases answered
        cases stage <;> cases moved
        exact .take name rfl free.1 free.2 rfl rfl rfl
      · cases answered
    | put =>
      cases answered
      cases stage <;> cases spent <;> cases moved
      exact .put rfl rfl rfl rfl rfl

end Moves

end Laplace.Soundness
