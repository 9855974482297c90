import Laplace.Model.NotifyRuns
import Laplace.Soundness.PermitLedger

/-! # What ends the waits on an async notify

`notify_one` and `notify_waiters` report before they forward, and a wait reports that it was resolved after tokio
ended it. So a trace never shows an effect before its cause: where no `notify_waiters` is reported, every wait that is
resolved has a `notify_one` reported before it, and no two waits have the same one. The gaps between a report and what
it is about are the phases of a use; what the trace shows, what tokio was told and the gaps add up.
-/

namespace Laplace.Soundness

open Laplace.Machine Laplace.Model Laplace.Model.Runtime

variable {Value Process : Type}

/-- What one use of the notify has under way. -/
inductive NotifyPhase where
  | idle
  /-- `notify_one` is reported, and not forwarded. -/
  | promising
  /-- `notify_waiters` is reported, and not forwarded. -/
  | calling
  /-- Its wait has ended, which is not reported. -/
  | ended
deriving DecidableEq

namespace NotifyPhase

def say : NotifyPhase → Event → Option NotifyPhase
  | .idle, .notifyOne _ => some .promising
  | .idle, .notifyWaiters _ => some .calling
  | .idle, .notifyWaitRequested .. | .idle, .notifyWaiterDropped .. => some .idle
  | .ended, .notifyWaitResolved .. => some .idle
  | _, _ => none

def call : NotifyPhase → (call : Tokio Value) → call.Reply → Option NotifyPhase
  | .promising, .notifyOne _, _ => some .idle
  | .calling, .notifyWaiters _, _ => some .idle
  | .idle, .notified _, _ | .idle, .dropFuture .., _ => some .idle
  | .idle, .poll .notified _, .pending => some .idle
  | .idle, .poll .notified _, .ready _ => some .ended
  | _, _, _ => none

/-- The protocol of one use of the notify. -/
def after (phase : NotifyPhase) : (effect : Effect Value) → effect.Reply → Option NotifyPhase
  | .report event, _ => phase.say event
  | .tokio call, reply => phase.call call reply
  | .load _, _ | .compareExchange .., _ | .nextResource, _ | .nextWaiter, _ | .hook _, _ => some phase
  | _, _ => none

end NotifyPhase

/-- The protocol of the notify's uses while a hook is installed. -/
def notifyProtocol (Value : Type) : Protocol (Effect Value) Effect.Reply NotifyPhase where
  possible := hookedReply
  after := NotifyPhase.after

/-- Between two operations of a use nothing is under way. -/
def NotifyPhase.Rest (phase : NotifyPhase) (_ : NotifyUse) : Prop := phase = .idle

section Conformance

variable {α : Type} {self : ModelAsyncNotify} {phase later : NotifyPhase}

theorem notifyProtocol_ignores (Value : Type) (phase : NotifyPhase) : Ignores (notifyProtocol Value) phase := by
  intro effect books
  refine ⟨trivial, fun reply _ => ?_⟩
  cases effect
  case panic => cases reply
  case load | compareExchange | nextResource | hook => rfl
  all_goals cases books

theorem notify_perform {effect : Effect Value} {rest : NotifyPhase → effect.Reply → Prop}
    (moves : ∀ reply, ∃ later, phase.after effect reply = some later ∧ rest later reply) :
    (perform effect).Conforms (notifyProtocol Value) rest phase :=
  ⟨trivial, fun reply _ => moves reply⟩

/-- A report, which a hook hears. -/
theorem notify_announces {event : Event} (spoken : phase.say event = some later) :
    (withHook .notify (report event) : RuntimeM Value Unit).Conforms (notifyProtocol Value)
      (fun reached _ => reached = later)
      phase := by
  refine Program.conforms_perform_bind.mpr ⟨trivial, fun installed isInstalled => ⟨phase, rfl, ?_⟩⟩
  obtain rfl : installed = true := isInstalled
  exact notify_perform fun _ => ⟨later, spoken, rfl⟩

theorem notified_conforms :
    (ModelAsyncNotify.notified self : RuntimeM Value Awaiting).Conforms (notifyProtocol Value)
      (fun later _ => later = .idle)
      .idle := by
  have ignores := notifyProtocol_ignores Value .idle
  refine (ignores.get ignores.unwound).bind ?_
  rintro _ resource rfl
  have makes (later : NotifyPhase) (_ : UInt64) (same : later = .idle) :
      (tokio (.notified self.inner) : RuntimeM Value Handle).Conforms (notifyProtocol Value)
        (fun later _ => later = .idle)
        later := by
    subst same
    exact notify_perform fun _ => ⟨.idle, rfl, rfl⟩
  refine (startFuture_conforms ignores ?_ makes).mono fun later future made => made.1
  exact notify_perform fun id => ⟨.idle, rfl, by cases id <;> rfl⟩

/-- A call that notifies reports, then forwards. -/
theorem notifies_conforms (event : UInt64 → Event) {call : Tokio Value}
    (spoken : ∀ resource, NotifyPhase.idle.say (event resource) = some phase)
    (forwarded : ∀ reply, phase.call call reply = some .idle) :
    (do let resource ← self.resource.get (pure ())
        withHook .notify (report (event resource))
        tokio call : RuntimeM Value call.Reply).Conforms (notifyProtocol Value)
          (fun later _ => later = .idle) .idle := by
  have ignores := notifyProtocol_ignores Value .idle
  refine (ignores.get ignores.unwound).bind ?_
  rintro _ resource rfl
  refine (notify_announces (spoken resource)).bind ?_
  rintro _ _ rfl
  exact notify_perform fun reply => ⟨.idle, forwarded reply, rfl⟩

/-- A poll reports that the wait was resolved after tokio ended it. -/
theorem notifiedPoll_conforms {future : Awaiting} :
    (ModelNotified.poll future : RuntimeM Value _).Conforms (notifyProtocol Value)
      (fun later _ => later = .idle) .idle := by
  refine Program.conforms_perform_bind.mpr ⟨trivial, fun answer _ => ?_⟩
  cases answer with
  | pending =>
    refine ⟨.idle, rfl, ?_⟩
    cases emitted : future.requestedEmitted with
    | true => exact rfl
    | false => exact (notify_announces rfl).bind fun _ _ reached => reached
  | ready =>
    refine ⟨.ended, rfl, ?_⟩
    exact (notify_announces rfl).bind fun _ _ reached => reached

theorem notifiedDrop_conforms {future : Awaiting} :
    (ModelNotified.drop future : RuntimeM Value Unit).Conforms (notifyProtocol Value) (fun later _ => later = .idle)
      .idle := by
  have drops : (tokio (.dropFuture .notified future.inner) : RuntimeM Value Unit).Conforms (notifyProtocol Value)
      (fun later _ => later = .idle) .idle := notify_perform fun _ => ⟨.idle, rfl, rfl⟩
  simp only [ModelNotified.drop, Awaiting.drop]
  split
  · refine (notify_announces rfl).bind ?_
    rintro _ _ rfl
    exact drops
  · exact drops

/-- Every operation keeps to the protocol. -/
theorem notifyStart_conforms {use : NotifyUse} {operation : NotifyOperation} {program : RuntimeM Value NotifyUse}
    (started : notifyStart self use operation = some program) (rests : phase.Rest use) :
    program.Conforms (notifyProtocol Value) NotifyPhase.Rest phase := by
  obtain rfl : phase = .idle := rests
  cases use with
  | unused =>
    cases operation with
    | notified =>
      obtain rfl := Option.some.inj started
      exact notified_conforms.bind fun _ _ idle => idle
    | notifyOne =>
      obtain rfl := Option.some.inj started
      exact (notifies_conforms .notifyOne (fun _ => rfl) fun _ => rfl).bind fun _ _ idle => idle
    | notifyWaiters =>
      obtain rfl := Option.some.inj started
      exact (notifies_conforms .notifyWaiters (fun _ => rfl) fun _ => rfl).bind fun _ _ idle => idle
    | poll | dropFuture => cases started
  | waiting future =>
    cases operation with
    | poll =>
      obtain ⟨-, same⟩ := Option.ite_none_left_eq_some.mp started
      obtain rfl := Option.some.inj same
      exact notifiedPoll_conforms.bind fun _ _ idle => idle
    | dropFuture =>
      obtain rfl := Option.some.inj started
      exact notifiedDrop_conforms.bind fun _ _ idle => idle
    | notified | notifyOne | notifyWaiters => cases started
  | spent => cases operation <;> cases started

end Conformance

/-- The calls of `notify_one` that an event reports. -/
def onesNotified : Event → ℕ
  | .notifyOne _ => 1
  | _ => 0

/-- The calls of `notify_waiters` that an event reports. -/
def allNotified : Event → ℕ
  | .notifyWaiters _ => 1
  | _ => 0

/-- The waits that an event reports as resolved. -/
def waitsResolved : Event → ℕ
  | .notifyWaitResolved .. => 1
  | _ => 0

/-- How many of the uses stand there, of one. -/
def NotifyPhase.isAt (place phase : NotifyPhase) : ℕ := if phase = place then 1 else 0

section Invariant

variable [Fintype Process] [DecidableEq Process]

/-- What the trace shows, what tokio was told and has ended, and what the uses have under way add up. -/
structure NotifyInvariant (world : World (Notifications Process)) (phases : Process → NotifyPhase) : Prop where
  hooked : Hooked world
  ones : tally onesNotified world.trace = world.inner.given + ∑ process, NotifyPhase.promising.isAt (phases process)
  broadcasts : tally allNotified world.trace =
    world.inner.broadcasts + ∑ process, NotifyPhase.calling.isAt (phases process)
  resolved : tally waitsResolved world.trace + ∑ process, NotifyPhase.ended.isAt (phases process) =
    world.inner.taken + world.inner.woken
  paid : world.inner.taken ≤ world.inner.given
  called : 0 < world.inner.woken → 0 < world.inner.broadcasts

variable {world next : World (Notifications Process)} {phases : Process → NotifyPhase} {process : Process}
  {later : NotifyPhase}

/-- A step of one process: what changes in the counts and in the trace is what changes in its phase. -/
theorem NotifyInvariant.move (invariant : NotifyInvariant world phases) (hooked : Hooked next)
    (ones : tally onesNotified next.trace + world.inner.given + NotifyPhase.promising.isAt (phases process) =
      tally onesNotified world.trace + next.inner.given + NotifyPhase.promising.isAt later)
    (broadcasts : tally allNotified next.trace + world.inner.broadcasts + NotifyPhase.calling.isAt (phases process) =
      tally allNotified world.trace + next.inner.broadcasts + NotifyPhase.calling.isAt later)
    (resolved : tally waitsResolved next.trace + world.inner.taken + world.inner.woken + NotifyPhase.ended.isAt later =
      tally waitsResolved world.trace + next.inner.taken + next.inner.woken +
        NotifyPhase.ended.isAt (phases process))
    (paid : next.inner.taken ≤ next.inner.given) (called : 0 < next.inner.woken → 0 < next.inner.broadcasts) :
    NotifyInvariant next (Function.update phases process later) := by
  have promising := total_update NotifyPhase.promising.isAt phases process later
  have calling := total_update NotifyPhase.calling.isAt phases process later
  have ended := total_update NotifyPhase.ended.isAt phases process later
  refine ⟨hooked, ?_, ?_, ?_, paid, called⟩
  · have := invariant.ones
    omega
  · have := invariant.broadcasts
    omega
  · have := invariant.resolved
    omega

/-- A step that changes neither the counts nor the trace. -/
theorem NotifyInvariant.same (invariant : NotifyInvariant world phases) (hooked : Hooked next)
    (inner : next.inner = world.inner) (trace : next.trace = world.trace) (stays : later = phases process) :
    NotifyInvariant next (Function.update phases process later) := by
  subst stays
  refine invariant.move hooked ?_ ?_ ?_ ?_ ?_
  · rw [inner, trace]
  · rw [inner, trace]
  · rw [inner, trace]
  · rw [inner]
    exact invariant.paid
  · rw [inner]
    exact invariant.called

/-- A report that the protocol permits moves the trace along with the phase. -/
theorem say_counts {phase later : NotifyPhase} {event : Event} (spoken : phase.say event = some later) :
    onesNotified event + NotifyPhase.promising.isAt phase = NotifyPhase.promising.isAt later ∧
    allNotified event + NotifyPhase.calling.isAt phase = NotifyPhase.calling.isAt later ∧
    waitsResolved event + NotifyPhase.ended.isAt later = NotifyPhase.ended.isAt phase := by
  cases phase with
  | idle => cases event <;> cases spoken <;> exact ⟨rfl, rfl, rfl⟩
  | ended =>
    cases event <;> cases spoken
    exact ⟨rfl, rfl, rfl⟩
  | promising | calling => cases spoken

theorem NotifyInvariant.say (invariant : NotifyInvariant world phases) {event : Event}
    (spoken : (phases process).say event = some later)
    (hooked : Hooked { world with trace := world.trace ++ [event] }) :
    NotifyInvariant { world with trace := world.trace ++ [event] } (Function.update phases process later) := by
  obtain ⟨ones, broadcasts, resolved⟩ := say_counts spoken
  refine invariant.move hooked ?_ ?_ ?_ invariant.paid invariant.called
  · simp only [tally_append]
    omega
  · simp only [tally_append]
    omega
  · simp only [tally_append]
    omega

/-- A wait goes on, or ends for what tokio was told. -/
theorem NotifyInvariant.poll (invariant : NotifyInvariant world phases) {wakeup : Wakeup} {answer : Poll Unit}
    {notifications : Notifications Process} {future : Handle} (isIdle : phases process = .idle)
    (answers : world.inner.wake process wakeup = some (answer, notifications))
    (moved : (phases process).call (.poll .notified future : Tokio Value) answer = some later)
    (hooked : Hooked { world with inner := notifications }) :
    NotifyInvariant { world with inner := notifications } (Function.update phases process later) := by
  rw [isIdle] at moved
  cases wakeup with
  | none =>
    cases answers
    exact invariant.same hooked rfl rfl ((Option.some.inj moved).symm.trans isIdle.symm)
  | one =>
    obtain ⟨room, same⟩ := Option.ite_none_right_eq_some.mp answers
    cases same
    obtain rfl := Option.some.inj moved
    refine invariant.move hooked ?_ ?_ ?_ room invariant.called
    · rw [isIdle]
      rfl
    · rw [isIdle]
      rfl
    · simp only [isIdle, NotifyPhase.isAt, if_true, reduceCtorEq, if_false]
      omega
  | waiters =>
    obtain ⟨seen, same⟩ := Option.ite_none_right_eq_some.mp answers
    cases same
    obtain rfl := Option.some.inj moved
    refine invariant.move hooked ?_ ?_ ?_ invariant.paid fun _ => Nat.zero_lt_of_lt seen
    · rw [isIdle]
      rfl
    · rw [isIdle]
      rfl
    · simp only [isIdle, NotifyPhase.isAt, if_true, reduceCtorEq, if_false]
      omega

/-- Every call of tokio that the protocol permits. -/
theorem NotifyInvariant.tokio (invariant : NotifyInvariant world phases) {call : Tokio Value} {wakeup : Wakeup}
    {reply : call.Reply} {notifications : Notifications Process}
    (answers : countingNotify process world.inner call wakeup = some (reply, notifications))
    (moved : (phases process).call call reply = some later) (hooked : Hooked { world with inner := notifications }) :
    NotifyInvariant { world with inner := notifications } (Function.update phases process later) := by
  cases call
  case notified =>
    cases answers
    cases isIdle : phases process <;> rw [isIdle] at moved <;> cases moved
    refine invariant.move hooked ?_ ?_ ?_ invariant.paid invariant.called <;> rw [isIdle]
  case dropFuture =>
    cases answers
    cases isIdle : phases process <;> rw [isIdle] at moved <;> cases moved
    exact invariant.same hooked rfl rfl isIdle.symm
  case poll kind future =>
    cases kind
    case notified =>
      refine invariant.poll ?_ answers moved hooked
      cases isIdle : phases process <;> rw [isIdle] at moved
      all_goals cases moved
    all_goals cases answers
  case notifyOne =>
    cases answers
    cases promised : phases process <;> rw [promised] at moved <;> cases moved
    refine invariant.move hooked ?_ ?_ ?_ (invariant.paid.trans (Nat.le_add_right _ _)) invariant.called
    · simp only [promised, NotifyPhase.isAt, if_true, reduceCtorEq, if_false]
      omega
    · rw [promised]
      rfl
    · rw [promised]
      rfl
  case notifyWaiters =>
    cases answers
    cases isCalling : phases process <;> rw [isCalling] at moved <;> cases moved
    refine invariant.move hooked ?_ ?_ ?_ invariant.paid fun _ => Nat.succ_pos _
    · rw [isCalling]
      rfl
    · simp only [isCalling, NotifyPhase.isAt, if_true, reduceCtorEq, if_false]
      omega
    · rw [isCalling]
      rfl
  all_goals cases answers

/-- Every effect that the protocol permits keeps the invariant. -/
theorem notify_answers (invariant : NotifyInvariant world phases) {effect : Effect Value} {wakeup : Wakeup}
    {reply : effect.Reply} (answered : world.answer (countingNotify process) effect wakeup = some (reply, next))
    (moved : (phases process).after effect reply = some later) :
    NotifyInvariant next (Function.update phases process later) := by
  have hooked := (invariant.hooked.answer answered).2
  cases effect with
  | tokio call =>
    obtain ⟨⟨reply', inner⟩, answers, same⟩ := Option.map_eq_some_iff.mp answered
    cases same
    exact invariant.tokio answers moved hooked
  | report event =>
    cases answered
    exact invariant.say moved hooked
  | compareExchange atomic expected new =>
    simp only [World.answer] at answered
    split at answered
    · cases answered
      exact invariant.same hooked rfl rfl (Option.some.inj moved).symm
    · cases answered
      exact invariant.same hooked rfl rfl (Option.some.inj moved).symm
  | load | nextResource | nextWaiter | hook =>
    cases answered
    exact invariant.same hooked rfl rfl (Option.some.inj moved).symm
  | newAtomic | fetchAdd | newFlag | swapFlag => cases moved
  | panic => cases answered

end Invariant

section Runs

/-- The notify before its first use, with the hook installed. -/
structure NotifyStart (world : World (Notifications Process)) : Prop where
  hooked : Hooked world
  silent : world.trace = []
  fresh : world.inner = {}

variable [DecidableEq Process]

/-- A state of the notify that some run reaches. -/
def NotifyReaches (Value : Type) (self : ModelAsyncNotify) (world : World (Notifications Process))
    (final : System.Config (Effect Value) Effect.Reply Process NotifyUse (World (Notifications Process))) : Prop :=
  ∃ actions, run? (notifySystem Value self).step ⟨world, fun _ => .done .unused⟩ actions = some final

variable [Fintype Process] {self : ModelAsyncNotify} {world : World (Notifications Process)}
  {final : System.Config (Effect Value) Effect.Reply Process NotifyUse (World (Notifications Process))}

/-- The invariant holds in every reachable state. -/
theorem notify_invariant_of_run (start : NotifyStart world) (reached : NotifyReaches Value self world final) :
    ∃ phases, System.Phased (notifyProtocol Value) NotifyPhase.Rest NotifyInvariant final phases := by
  obtain ⟨actions, reached⟩ := reached
  have initially : System.Phased (notifyProtocol Value) NotifyPhase.Rest NotifyInvariant
      (⟨world, fun _ => .done .unused⟩ : System.Config (Effect Value) Effect.Reply Process _ _) (fun _ => .idle) := by
    refine ⟨⟨start.hooked, ?_, ?_, ?_, ?_, ?_⟩, fun _ => rfl⟩
    all_goals simp [start.fresh, start.silent, tally, NotifyPhase.isAt]
  exact System.phases_of_run
    (fun _ _ _ _ _ started rests => notifyStart_conforms started rests)
    (fun _ _ _ _ _ _ _ invariant answered =>
      ⟨(invariant.hooked.answer answered).1, fun _ _ moved => notify_answers invariant answered moved⟩)
    initially reached

omit [DecidableEq Process] in
/-- Where no `notify_waiters` is reported, every wait that is resolved is paid for by a `notify_one`. -/
theorem resolved_paid {phases : Process → NotifyPhase} {world : World (Notifications Process)}
    (invariant : NotifyInvariant world phases) (none : tally allNotified world.trace = 0) :
    tally waitsResolved world.trace ≤ tally onesNotified world.trace := by
  have ones := invariant.ones
  have broadcasts := invariant.broadcasts
  have resolved := invariant.resolved
  have paid := invariant.paid
  have called := invariant.called
  omega

/-- **No wait is resolved before what ends it.** At every point of a trace at which a wait is resolved, either a
`notify_waiters` has been reported before, or more calls of `notify_one` have been reported than waits resolved. -/
theorem notified_before_resolved (start : NotifyStart world) (reached : NotifyReaches Value self world final)
    {before after : List Event} {resource waiter : UInt64}
    (split : final.shared.trace = before ++ .notifyWaitResolved resource waiter :: after) :
    0 < tally allNotified before ∨ tally waitsResolved before < tally onesNotified before := by
  obtain ⟨actions, reached⟩ := reached
  have isPart : before ++ [.notifyWaitResolved resource waiter] <+: final.shared.trace :=
    ⟨after, by rw [split, List.append_assoc, List.singleton_append]⟩
  obtain ⟨past, config, past_reached, same⟩ := trace_prefix_reached start.silent reached isPart
  obtain ⟨phases, invariant, -⟩ := notify_invariant_of_run start ⟨past, past_reached⟩
  refine or_iff_not_imp_left.mpr fun silent => ?_
  have paid := resolved_paid invariant
  simp only [same, tally_append, allNotified, waitsResolved, onesNotified] at paid
  omega

/-- A wait that finds the permit of an earlier `notify_one`. -/
theorem notified_before_resolved_stored :
    ∃ final, NotifyReaches Unit ⟨0, 0⟩ ({ inner := {} } : World (Notifications Bool)) final ∧
      final.shared.trace = [.notifyOne 1, .notifyWaitResolved 1 1] ∧
      (0 < tally allNotified [.notifyOne 1] ∨
        tally waitsResolved [.notifyOne 1] < tally onesNotified [.notifyOne 1]) := by
  have reached : NotifyReaches Unit ⟨0, 0⟩ ({ inner := {} } : World (Notifications Bool)) _ :=
    ⟨List.flatten [[.start false .notifyOne], List.replicate 6 (.advance false .none), [.start true .notified],
      List.replicate 3 (.advance true .none), [.start true .poll], List.replicate 3 (.advance true .one)], rfl⟩
  exact ⟨_, reached, rfl, notified_before_resolved ⟨⟨rfl, by decide⟩, rfl, rfl⟩ reached rfl⟩

end Runs

end Laplace.Soundness
