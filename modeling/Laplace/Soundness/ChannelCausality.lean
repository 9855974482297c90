import Laplace.Soundness.ChannelClosure

/-! # Causes in the trace of an `mpsc` channel

A send and a close are forwarded to tokio first and reported afterwards, so that their effects can be reported
before them. What the trace lacks is in flight: a receive that has no reported send yet has a send that tokio
accepted and whose caller has still to report it, and a refused send that has no reported cause yet comes from a
receiver that is inside `close`.
-/

namespace Laplace.Soundness

open Laplace.Machine Laplace.Model Laplace.Model.Runtime

variable {Value Process : Type} {flavor : ChannelFlavor} {resource : UInt64} {receiver : Process}

/-- One for a delivery that is not reported. -/
def ChannelStage.delivering : ChannelStage Process → ℕ
  | .received => 1
  | _ => 0

/-- One for an accepted send that is not reported. -/
def ChannelStage.accepting : ChannelStage Process → ℕ
  | .accepted => 1
  | _ => 0

/-- A note takes a delivery or a send from a use into the trace. -/
theorem note_queue {note : Note} {stage later : ChannelStage Process} (moved : stage.say note = some later) :
    (if note = .received then 1 else 0) + later.delivering = stage.delivering ∧
      (if note = .sent then 1 else 0) + later.accepting = stage.accepting := by
  cases stage <;> cases note <;> cases moved <;> exact ⟨rfl, rfl⟩

/-- Only an act makes a send accepted. -/
theorem note_accepted {note : Note} {stage later : ChannelStage Process} (moved : stage.say note = some later) :
    later ≠ .accepted := by
  cases stage <;> cases note <;> cases moved <;> nofun

variable [DecidableEq Process]

/-- An act moves a value between the queue and a use. -/
theorem act_queue {process : Process} {state next : ChannelState Process} {act : Act}
    {stage later : ChannelStage Process} (acts : Acts process state next act) (moved : stage.act act = some later) :
    next.queued + later.delivering + stage.accepting = state.queued + stage.delivering + later.accepting := by
  cases stage <;> cases act <;> cases moved
  case idle.deliver =>
    obtain ⟨delivers, rfl⟩ := acts
    have positive := of_decide_eq_true delivers
    simp only [ChannelStage.delivering, ChannelStage.accepting]
    omega
  case idle.refuse | idle.deny =>
    obtain ⟨-, rfl⟩ := acts
    rfl
  all_goals
    cases acts
    rfl

/-- A use whose send is accepted and not reported is known to tokio's channel. -/
theorem act_accepted {process : Process} {state next : ChannelState Process} {act : Act}
    {stage later : ChannelStage Process} (acts : Acts process state next act) (moved : stage.act act = some later) :
    (∀ other, state.accepted other = true → next.accepted other = true) ∧
      (later = .accepted → next.accepted process = true) := by
  cases stage <;> cases act <;> cases moved
  case idle.accept =>
    cases acts
    refine ⟨fun other accepted => ?_, fun _ => Function.update_self ..⟩
    simp only [ChannelState.accept, Function.update_apply]
    split
    · rfl
    · exact accepted
  case idle.refuse | idle.deny | idle.deliver =>
    obtain ⟨-, rfl⟩ := acts
    exact ⟨fun _ => id, nofun⟩
  all_goals
    cases acts
    exact ⟨fun _ => id, nofun⟩

variable [Fintype Process]

/-- Every value that was received or is in the queue was sent. -/
structure QueueLedger (flavor : ChannelFlavor) (resource : UInt64) (shared : ChannelWorld Process)
    (phases : Process → ChannelPhase Process) : Prop where
  balance : noted flavor resource .received shared.world.trace + ∑ process, (phases process).stage.delivering +
      shared.world.inner.queued =
    noted flavor resource .sent shared.world.trace + ∑ process, (phases process).stage.accepting
  accepted : ∀ process, (phases process).stage = .accepted → shared.world.inner.accepted process = true

namespace QueueLedger

variable {shared next : ChannelWorld Process} {phases : Process → ChannelPhase Process} {process : Process}

/-- A move by what it adds to the trace and does to the queue. -/
theorem stage_moved (ledger : QueueLedger flavor resource shared phases) {later : ChannelPhase Process}
    {receives sends : ℕ}
    (received : noted flavor resource .received next.world.trace =
      noted flavor resource .received shared.world.trace + receives)
    (sent : noted flavor resource .sent next.world.trace = noted flavor resource .sent shared.world.trace + sends)
    (queue : receives + next.world.inner.queued + later.stage.delivering + (phases process).stage.accepting =
      shared.world.inner.queued + (phases process).stage.delivering + sends + later.stage.accepting)
    (kept : ∀ other, shared.world.inner.accepted other = true → next.world.inner.accepted other = true)
    (accepted : later.stage = .accepted → next.world.inner.accepted process = true) :
    QueueLedger flavor resource next (Function.update phases process later) := by
  have delivering := total_update (fun phase => phase.stage.delivering) phases process later
  have accepting := total_update (fun phase => phase.stage.accepting) phases process later
  have balance := ledger.balance
  refine ⟨by omega, fun other isAccepted => ?_⟩
  rcases ClosureInvariant.stage_after isAccepted with ⟨rfl, same⟩ | ⟨-, before⟩
  · exact accepted same
  · exact kept other (ledger.accepted other before)

/-- Every move keeps the ledger. -/
theorem move (ledger : QueueLedger flavor resource shared phases) {later : ChannelPhase Process}
    (moved : ChannelMove flavor resource process shared next (phases process) later) :
    QueueLedger flavor resource next (Function.update phases process later) := by
  have owned : next.world = shared.world → later.stage.delivering = (phases process).stage.delivering →
      later.stage.accepting = (phases process).stage.accepting → later.stage ≠ .accepted →
      QueueLedger flavor resource next (Function.update phases process later) := by
    intro world delivering accepting unaccepted
    refine ledger.stage_moved (by rw [world, Nat.add_zero]) (by rw [world,
        Nat.add_zero]) ?_ (by rw [world]; exact fun _ => id)
      fun isAccepted => absurd isAccepted unaccepted
    rw [world]
    omega
  cases moved with
  | quiet inner trace owners =>
    rw [Function.update_eq_self]
    exact ⟨by rw [inner, trace]; exact ledger.balance, by rw [inner]; exact ledger.accepted⟩
  | act act stage moved acts trace owners closes denies =>
    have queue := act_queue acts moved
    obtain ⟨kept, accepted⟩ := act_accepted acts moved
    refine ledger.stage_moved (by rw [trace, Nat.add_zero]) (by rw [trace, Nat.add_zero]) ?_ kept accepted
    simp only [ChannelPhase.move]
    omega
  | note event stage moved inner trace owners =>
    obtain ⟨received, sent⟩ := note_queue moved
    refine ledger.stage_moved (by rw [trace, noted_append]) (by rw [trace,
        noted_append]) ?_ (by rw [inner]; exact fun _ => id)
      fun isAccepted => absurd isAccepted (note_accepted moved)
    rw [inner]
    simp only [ChannelPhase.move]
    omega
  | borrow source idle member world senders borrowed =>
    exact owned world (by rw [idle]; rfl) (by rw [idle]; rfl) fun same => by cases same
  | release isOwned world senders borrowed =>
    exact owned world rfl rfl fun same => by cases isOwned.symm.trans same
  | take name idle member free world senders borrowed =>
    exact owned world (by rw [idle]; rfl) (by rw [idle]; rfl) fun same => by cases same
  | put isOwned fresh world senders borrowed =>
    exact owned world (by rw [isOwned]; rfl) (by rw [isOwned]; rfl) fun same => by cases same

end QueueLedger

/-- The trace shows why a send is refused, or the receiver is about to report it. -/
def Gone (flavor : ChannelFlavor) (resource : UInt64) (receiver : Process) (shared : ChannelWorld Process)
    (phases : Process → ChannelPhase Process) : Prop :=
  noted flavor resource .closed shared.world.trace ≠ 0 ∨
      noted flavor resource .receiverDropped shared.world.trace ≠ 0 ∨
    shared.world.inner.closed = true ∧ (phases receiver).stage = .closing

/-- Why tokio refuses a send. -/
structure CauseInvariant (flavor : ChannelFlavor) (resource : UInt64) (receiver : Process)
    (shared : ChannelWorld Process) (phases : Process → ChannelPhase Process) : Prop where
  role : ∀ process, (phases process).isReceiver = true → process = receiver
  closed : shared.world.inner.closed = true → noted flavor resource .closed shared.world.trace ≠ 0 ∨
    (phases receiver).stage = .closing
  departed : shared.world.inner.receiverDropped = true →
    noted flavor resource .receiverDropped shared.world.trace ≠ 0
  departing : ∀ process, (phases process).stage = .departing →
    noted flavor resource .receiverDropped shared.world.trace ≠ 0
  refused : ∀ process, (phases process).stage = .refused → Gone flavor resource receiver shared phases
  explained : noted flavor resource .refused shared.world.trace ≠ 0 → Gone flavor resource receiver shared phases

namespace CauseInvariant

variable {shared next : ChannelWorld Process} {phases : Process → ChannelPhase Process} {process : Process}

omit [Fintype Process] in
/-- A move that ends no closing and hides nothing. -/
theorem plain (invariant : CauseInvariant flavor resource receiver shared phases) {later : ChannelPhase Process}
    (role : later.isReceiver = (phases process).isReceiver) (wasUnclosing : (phases process).stage ≠ .closing)
    (closed : next.world.inner.closed = shared.world.inner.closed)
    (closed_le : noted flavor resource .closed shared.world.trace ≤ noted flavor resource .closed next.world.trace)
    (dropped_le : noted flavor resource .receiverDropped shared.world.trace ≤
      noted flavor resource .receiverDropped next.world.trace)
    (departed : next.world.inner.receiverDropped = true → shared.world.inner.receiverDropped = true ∨
      (phases process).stage = .departing)
    (departing : later.stage = .departing → noted flavor resource .receiverDropped next.world.trace ≠ 0)
    (refused : later.stage = .refused → shared.world.inner.refuses = true)
    (explained : noted flavor resource .refused next.world.trace ≠ 0 →
      noted flavor resource .refused shared.world.trace ≠ 0 ∨ (phases process).stage = .refused) :
    CauseInvariant flavor resource receiver next (Function.update phases process later) := by
  have stillClosing : (phases receiver).stage = .closing →
      (Function.update phases process later receiver).stage = .closing := by
    intro isClosing
    have different : receiver ≠ process := by
      rintro rfl
      exact wasUnclosing isClosing
    rw [Function.update_of_ne different]
    exact isClosing
  have stillGone : Gone flavor resource receiver shared phases →
      Gone flavor resource receiver next (Function.update phases process later) := by
    rintro (isClosed | isDropped | ⟨isClosed, isClosing⟩)
    · exact .inl (by omega)
    · exact .inr (.inl (by omega))
    · exact .inr (.inr ⟨closed ▸ isClosed, stillClosing isClosing⟩)
  have refusedGone : shared.world.inner.refuses = true → Gone flavor resource receiver shared phases := by
    intro refuses
    rcases Bool.or_eq_true_iff.mp refuses with isClosed | isDropped
    · exact (invariant.closed isClosed).imp id fun isClosing => .inr ⟨isClosed, isClosing⟩
    · exact .inr (.inl (invariant.departed isDropped))
  refine ⟨fun other isReceiver => ?_, fun isClosed => ?_, fun isDropped => ?_, fun other isDeparting => ?_,
    fun other isRefused => ?_, fun isRefused => ?_⟩
  · rw [ClosureInvariant.role_kept phases process role] at isReceiver
    exact invariant.role other isReceiver
  · rw [closed] at isClosed
    exact (invariant.closed isClosed).imp (fun isNoted => by omega) stillClosing
  · rcases departed isDropped with before | isDeparting
    · have isNoted := invariant.departed before
      omega
    · have isNoted := invariant.departing process isDeparting
      omega
  · rcases ClosureInvariant.stage_after isDeparting with ⟨-, same⟩ | ⟨-, before⟩
    · exact departing same
    · have isNoted := invariant.departing other before
      omega
  · rcases ClosureInvariant.stage_after isRefused with ⟨-, same⟩ | ⟨-, before⟩
    · exact stillGone (refusedGone (refused same))
    · exact stillGone (invariant.refused other before)
  · rcases explained isRefused with before | wasRefused
    · exact stillGone (invariant.explained before)
    · exact stillGone (invariant.refused process wasRefused)

omit [Fintype Process] in
/-- The receiver closes the channel. -/
theorem closes (invariant : CauseInvariant flavor resource receiver shared phases)
    (isReceiver : (phases process).isReceiver = true)
        (acts : next.world.inner = { shared.world.inner with closed := true })
    (trace : next.world.trace = shared.world.trace) :
    CauseInvariant flavor resource receiver next (Function.update phases process ((phases process).move .closing)) := by
  obtain rfl := invariant.role process isReceiver
  have closing : (Function.update phases process ((phases process).move .closing) process).stage = .closing := by
    rw [Function.update_self]
    rfl
  have gone : Gone flavor resource process next (Function.update phases process ((phases process).move .closing)) := by
    refine .inr (.inr ⟨?_, closing⟩)
    rw [acts]
  refine ⟨fun other isReceiver => ?_, fun _ => .inr closing, ?_, fun other isDeparting => ?_, fun _ _ => gone,
      fun _ => gone⟩
  · rw [ClosureInvariant.role_moved] at isReceiver
    exact invariant.role other isReceiver
  · rw [acts, trace]
    exact invariant.departed
  · rw [trace]
    rcases ClosureInvariant.stage_after isDeparting with ⟨-, same⟩ | ⟨-, before⟩
    · cases same
    · exact invariant.departing other before

omit [Fintype Process] in
/-- The closing is reported. -/
theorem closing_noted (invariant : CauseInvariant flavor resource receiver shared phases) {event : Event}
    (isNote : noteOf flavor resource event = .closed) (inner : next.world.inner = shared.world.inner)
    (trace : next.world.trace = shared.world.trace ++ [event]) :
    CauseInvariant flavor resource receiver next (Function.update phases process ((phases process).move .idle)) := by
  have isNoted : noted flavor resource .closed next.world.trace ≠ 0 := by
    rw [trace, noted_append, if_pos isNote]
    omega
  have dropped_le : noted flavor resource .receiverDropped shared.world.trace ≤
      noted flavor resource .receiverDropped next.world.trace := by
    rw [trace, noted_append]
    omega
  refine ⟨fun other isReceiver => ?_, fun _ => .inl isNoted, fun isDropped => ?_, fun other isDeparting => ?_,
    fun _ _ => .inl isNoted, fun _ => .inl isNoted⟩
  · rw [ClosureInvariant.role_moved] at isReceiver
    exact invariant.role other isReceiver
  · rw [inner] at isDropped
    have before := invariant.departed isDropped
    omega
  · rcases ClosureInvariant.stage_after isDeparting with ⟨-, same⟩ | ⟨-, before⟩
    · cases same
    · have departed := invariant.departing other before
      omega

omit [Fintype Process] in
/-- Every act keeps the invariant. -/
theorem act_kept (invariant : CauseInvariant flavor resource receiver shared phases) {act : Act}
    {stage : ChannelStage Process} (moved : (phases process).stage.act act = some stage)
    (acts : Acts process shared.world.inner next.world.inner act) (trace : next.world.trace = shared.world.trace)
    (closes : act = .close → flavor.isMpsc = true ∧ (phases process).isReceiver = true) :
    CauseInvariant flavor resource receiver next (Function.update phases process ((phases process).move stage)) := by
  have plain : (phases process).stage ≠ .closing → next.world.inner.closed = shared.world.inner.closed →
      (next.world.inner.receiverDropped = true → shared.world.inner.receiverDropped = true ∨
        (phases process).stage = .departing) → stage ≠ .departing →
      (stage = .refused → shared.world.inner.refuses = true) →
      CauseInvariant flavor resource receiver next (Function.update phases process ((phases process).move stage)) := by
    intro wasUnclosing sameClosed departed undeparting refused
    exact invariant.plain rfl wasUnclosing sameClosed (by rw [trace]) (by rw [trace]) departed
      (fun isDeparting => absurd isDeparting undeparting) refused fun isNoted => .inl (trace ▸ isNoted)
  cases wasStage : (phases process).stage <;> rw [wasStage] at moved plain <;> cases act <;> cases moved
  case idle.close.refl => exact invariant.closes (closes rfl).2 acts trace
  case idle.refuse.refl => exact plain nofun (by rw [acts.2]) (by rw [acts.2]; exact .inl) nofun fun _ => acts.1
  case departing.dropReceiver.refl => exact plain nofun (by rw [acts]) (fun _ => .inr rfl) nofun nofun
  case idle.deny.refl | idle.deliver.refl =>
    exact plain nofun (by rw [acts.2]) (by rw [acts.2]; exact .inl) nofun nofun
  case idle.accept.refl => exact plain nofun (by rw [acts]; rfl) (by rw [acts]; exact .inl) nofun nofun
  all_goals exact plain nofun (by rw [acts]) (by rw [acts]; exact .inl) nofun nofun

omit [Fintype Process] in
/-- Every note keeps the invariant. -/
theorem note_kept (invariant : CauseInvariant flavor resource receiver shared phases) {event : Event}
    {stage : ChannelStage Process} (moved : (phases process).stage.say (noteOf flavor resource event) = some stage)
    (inner : next.world.inner = shared.world.inner) (trace : next.world.trace = shared.world.trace ++ [event]) :
    CauseInvariant flavor resource receiver next (Function.update phases process ((phases process).move stage)) := by
  have counts (note : Note) : noted flavor resource note next.world.trace = noted flavor resource note shared.world.trace +
      if noteOf flavor resource event = note then 1 else 0 := by rw [trace, noted_append]
  have closed_le := counts .closed
  have dropped_le := counts .receiverDropped
  have refused_eq := counts .refused
  have plain : (phases process).stage ≠ .closing → stage ≠ .refused →
      (stage = .departing → noteOf flavor resource event = .receiverDropped) →
      (noteOf flavor resource event = .refused → (phases process).stage = .refused) →
      CauseInvariant flavor resource receiver next (Function.update phases process ((phases process).move stage)) := by
    intro wasUnclosing unrefused departing refused
    refine invariant.plain rfl wasUnclosing (by rw [inner]) (by omega) (by omega) (by rw [inner]; exact .inl) ?_
      (fun isRefused => absurd isRefused unrefused) fun isNoted => ?_
    · intro isDeparting
      rw [if_pos (departing isDeparting)] at dropped_le
      omega
    · rcases eq_or_ne (noteOf flavor resource event) .refused with isRefused | different
      · exact .inr (refused isRefused)
      · rw [if_neg different] at refused_eq
        exact .inl (by omega)
  cases isNote : noteOf flavor resource event <;> rw [isNote] at moved plain <;>
    cases wasStage : (phases process).stage <;> rw [wasStage] at moved plain <;> cases moved
  case closed.closing.refl => exact invariant.closing_noted isNote inner trace
  case refused.refused.refl => exact plain nofun nofun nofun fun _ => rfl
  case receiverDropped.idle.refl => exact plain nofun nofun (fun _ => rfl) nofun
  all_goals exact plain nofun nofun nofun nofun

omit [Fintype Process] in
/-- Every move keeps the invariant. -/
theorem move (invariant : CauseInvariant flavor resource receiver shared phases) {later : ChannelPhase Process}
    (moved : ChannelMove flavor resource process shared next (phases process) later) :
    CauseInvariant flavor resource receiver next (Function.update phases process later) := by
  have owned : next.world = shared.world → later.isReceiver = (phases process).isReceiver →
      (phases process).stage ≠ .closing → later.stage ≠ .departing → later.stage ≠ .refused →
      CauseInvariant flavor resource receiver next (Function.update phases process later) := by
    intro world role wasUnclosing undeparting unrefused
    exact invariant.plain role wasUnclosing (by rw [world]) (by rw [world]) (by rw [world]) (by rw [world]; exact .inl)
      (fun isDeparting => absurd isDeparting undeparting) (fun isRefused => absurd isRefused unrefused)
      (by rw [world]; exact .inl)
  cases moved with
  | quiet inner trace owners =>
    rw [Function.update_eq_self]
    obtain ⟨role, closed, departed, departing, refused, explained⟩ := invariant
    unfold Gone at refused explained
    rw [← inner] at closed departed refused explained
    rw [← trace] at closed departed departing refused explained
    exact ⟨role, closed, departed, departing, refused, explained⟩
  | act act stage moved acts trace owners closes denies => exact invariant.act_kept moved acts trace closes
  | note event stage moved inner trace owners => exact invariant.note_kept moved inner trace
  | borrow source idle member world senders borrowed => exact owned world rfl (by rw [idle]; nofun) nofun nofun
  | release isOwned world senders borrowed =>
    exact owned world rfl (by rw [isOwned]; nofun) (by rw [isOwned]; nofun) (by rw [isOwned]; nofun)
  | take name idle member free world senders borrowed => exact owned world rfl (by rw [idle]; nofun) nofun nofun
  | put isOwned fresh world senders borrowed => exact owned world rfl (by rw [isOwned]; nofun) nofun nofun

end CauseInvariant

section Runs

variable {shared : ChannelWorld Process} {final : ChannelConfig Value Process}

/-- The use has returned from tokio and has still to report what tokio did. -/
def reporting : OwnedRt Value Process ChannelUse → Bool
  | .call (.inl (.tokio _)) _ => false
  | .call _ _ => true
  | .done _ => false

/-- One for a use whose send tokio accepted, until it is reported. -/
def sendInFlight (config : ChannelConfig Value Process) (process : Process) : ℕ :=
  if config.shared.world.inner.accepted process = true ∧ reporting (config.program process) = true then 1 else 0

omit [Fintype Process] [DecidableEq Process] in
/-- A use with something to report has not returned and does not call tokio. -/
theorem reporting_of_conforms {program : OwnedRt Value Process ChannelUse} {phase : ChannelPhase Process}
    (conforms : program.Conforms (channelProtocol Value flavor resource)
      (fun later use => ChannelRest flavor resource later use) phase)
    (busy : phase.stage = .accepted ∨ phase.stage = .closing) : reporting program = true := by
  cases program with
  | done use =>
    have idle := ChannelRest.idle (Program.conforms_done.mp conforms)
    rw [idle] at busy
    rcases busy with busy | busy <;> cases busy
  | call effect next =>
    rcases effect with (_ | _) | _
    case inl.tokio call =>
      obtain ⟨unaccepted, unclosing, -⟩ := conforms.1
      rcases busy with busy | busy
      · exact absurd busy unaccepted
      · exact absurd busy unclosing
    all_goals rfl

/-- The invariants of a run, and the programs that keep to them. -/
theorem causes_of_run (start : ChannelStart shared) (reached : ChannelReaches flavor resource receiver shared final) :
    ∃ phases : Process → ChannelPhase Process, QueueLedger flavor resource final.shared phases ∧
      CauseInvariant flavor resource receiver final.shared phases ∧
      ∀ process, (phases process).stage = .accepted ∨ (phases process).stage = .closing →
        reporting (final.program process) = true := by
  have queueStart : QueueLedger flavor resource shared fun process => { isReceiver := process = receiver } := by
    refine ⟨?_, fun _ same => by cases same⟩
    simp [start.channel, start.silent, noted, ChannelStage.delivering, ChannelStage.accepting]
  have causeStart : CauseInvariant flavor resource receiver shared fun process => { isReceiver := process = receiver } := by
    refine ⟨fun process isReceiver => of_decide_eq_true isReceiver, ?_, ?_, ?_, ?_, ?_⟩
    · rw [start.channel]
      intro isClosed
      cases isClosed
    · rw [start.channel]
      intro isDropped
      cases isDropped
    · intro process isDeparting
      cases isDeparting
    · intro process isRefused
      cases isRefused
    · rw [start.silent]
      exact fun isNoted => absurd rfl isNoted
  obtain ⟨phases, ⟨-, queue, cause⟩, conform⟩ := channel_invariant_of_run
    (fun shared phases => QueueLedger flavor resource shared phases ∧
        CauseInvariant flavor resource receiver shared phases)
    start ⟨queueStart, causeStart⟩ (fun _ _ _ _ _ holds moved => ⟨holds.1.move moved, holds.2.move moved⟩) reached
  exact ⟨phases, queue, cause, fun process busy => reporting_of_conforms (conform process) busy⟩

/-- At every point of every run, the receives that the trace shows are covered by the sends that it shows and
those in flight; and a send that the trace has just shown refused comes after a reported close or the end of the
receiver, or the receiver has closed the channel and is about to report it. -/
theorem effects_follow_causes (start : ChannelStart shared)
    (reached : ChannelReaches flavor resource receiver shared final) :
    noted flavor resource .received final.shared.world.trace ≤
      noted flavor resource .sent final.shared.world.trace + ∑ process, sendInFlight final process ∧
    ∀ before event, final.shared.world.trace = before ++ [event] → noteOf flavor resource event = .refused →
      noted flavor resource .closed before ≠ 0 ∨ noted flavor resource .receiverDropped before ≠ 0 ∨
        final.shared.world.inner.closed = true ∧ reporting (final.program receiver) = true := by
  obtain ⟨phases, queue, cause, busy⟩ := causes_of_run start reached
  constructor
  · have inFlight : ∑ process, (phases process).stage.accepting ≤ ∑ process, sendInFlight final process := by
      refine Finset.sum_le_sum fun process _ => ?_
      cases isStage : (phases process).stage
      case accepted =>
        rw [sendInFlight, if_pos ⟨queue.accepted process isStage, busy process (.inl isStage)⟩]
        exact Nat.le_refl 1
      all_goals exact Nat.zero_le _
    have balance := queue.balance
    omega
  · intro before event split isRefused
    have counts (note : Note) : noted flavor resource note final.shared.world.trace = noted flavor resource note before +
        if noteOf flavor resource event = note then 1 else 0 := by rw [split, noted_append]
    have refused := counts .refused
    have closed := counts .closed
    have dropped := counts .receiverDropped
    simp only [isRefused, reduceCtorEq, if_true, if_false, Nat.add_zero] at refused closed dropped
    rcases cause.explained (by omega) with isClosed | isDropped | ⟨isClosed, isClosing⟩
    · exact .inl (closed ▸ isClosed)
    · exact .inr (.inl (dropped ▸ isDropped))
    · exact .inr (.inr ⟨isClosed, busy receiver (.inr isClosing)⟩)

/-- The value is sent and not reported when its receive is. -/
def overtakenSend : List (System.Action Bool (ChannelOperation Unit Bool) (ChannelAnswer Unit)) :=
  List.flatten [[.start true (.sendNow {} ()), .advance true (.value ()), .start false (.tryRecv {})],
    List.replicate 4 (.advance false (.value ()))]

/-- The channel is closed and that is not reported when a send is refused. -/
def overtakenClose : List (System.Action Bool (ChannelOperation Unit Bool) (ChannelAnswer Unit)) :=
  List.flatten [[.start false (.close {}), .advance false .wait, .start true (.sendNow {} ())],
    List.replicate 4 (.advance true (.refused ()))]

theorem effects_follow_causes_in_flight :
    ∃ final, ChannelReaches .bounded 7 false { world := { inner := {} } } (final : ChannelConfig Unit Bool) ∧
      final.shared.world.trace = [.channelOpResolved 7 1 .recv .ok] ∧
      noted .bounded 7 .received final.shared.world.trace ≤
        noted .bounded 7 .sent final.shared.world.trace + ∑ process, sendInFlight final process := by
  have reached : ChannelReaches .bounded 7 false { world := { inner := {} } } (_ : ChannelConfig Unit Bool) :=
    ⟨overtakenSend, rfl⟩
  exact ⟨_, reached, rfl, (effects_follow_causes ⟨⟨rfl, by decide⟩, rfl, rfl, rfl, rfl⟩ reached).1⟩

/-- An effect can be reported before its cause: a receive before its send, and a refused send before the close. -/
theorem effects_overtake_causes :
    (∃ final, ChannelReaches .bounded 7 false { world := { inner := {} } } (final : ChannelConfig Unit Bool) ∧
      ¬ noted .bounded 7 .received final.shared.world.trace ≤ noted .bounded 7 .sent final.shared.world.trace) ∧
    ∃ final, ChannelReaches .bounded 7 false { world := { inner := {} } } (final : ChannelConfig Unit Bool) ∧
      ¬ Throughout (fun before event => noteOf .bounded 7 event = .refused →
          noted .bounded 7 .closed before ≠ 0 ∨ noted .bounded 7 .receiverDropped before ≠ 0)
        final.shared.world.trace := by
  refine ⟨?_, ?_⟩
  · have reached : ChannelReaches .bounded 7 false { world := { inner := {} } } (_ : ChannelConfig Unit Bool) :=
      ⟨overtakenSend, rfl⟩
    refine ⟨_, reached, ?_⟩
    exact fun covered => absurd (show 1 ≤ 0 from covered) (by decide)
  · have reached : ChannelReaches .bounded 7 false { world := { inner := {} } } (_ : ChannelConfig Unit Bool) :=
      ⟨overtakenClose, rfl⟩
    refine ⟨_, reached, fun throughout => ?_⟩
    have preceded := throughout [] (.channelOpResolved 7 1 .send .closed) [] rfl rfl
    exact preceded.elim (fun isNoted => isNoted rfl) fun isNoted => isNoted rfl

/-- **No value is lost or doubled.** Where every call on the channel has returned, the trace shows one receive for every
send that it shows, up to the values that are still in the channel. -/
theorem returned_ledger (start : ChannelStart shared)
    (reached : ChannelReaches flavor resource receiver shared final)
    (returned : ∀ process, ∃ use, final.program process = .done use) :
    noted flavor resource .received final.shared.world.trace + final.shared.world.inner.queued =
      noted flavor resource .sent final.shared.world.trace := by
  have empty : QueueLedger flavor resource shared fun process => { isReceiver := process = receiver } := by
    refine ⟨?_, fun _ same => by cases same⟩
    simp [start.channel, start.silent, noted, ChannelStage.delivering, ChannelStage.accepting]
  obtain ⟨phases, ⟨-, ledger⟩, conform⟩ := channel_invariant_of_run (QueueLedger flavor resource) start empty
    (fun _ _ _ _ _ ledger moved => ledger.move moved) reached
  have idle (process : Process) : (phases process).stage = .idle := by
    obtain ⟨use, isDone⟩ := returned process
    have conforms := conform process
    rw [isDone] at conforms
    exact (Program.conforms_done.mp conforms).idle
  have balance := ledger.balance
  simp only [idle, ChannelStage.delivering, ChannelStage.accepting, Finset.sum_const_zero, Nat.add_zero] at balance
  exact balance

/-- Two values are sent, and one is received. -/
def sentTwice : List (System.Action (Fin 3) (ChannelOperation Unit (Fin 3)) (ChannelAnswer Unit)) :=
  List.flatten [[.start 1 (.sendNow {} ())], List.replicate 4 (.advance 1 (.value ())),
    [.start 2 (.sendNow {} ())], List.replicate 4 (.advance 2 (.value ())), [.start 0 (.tryRecv {})],
    List.replicate 4 (.advance 0 (.value ()))]

theorem returned_ledger_sentTwice :
    ∃ final, ChannelReaches .bounded 7 0 { world := { inner := {} } } (final : ChannelConfig Unit (Fin 3)) ∧
      noted .bounded 7 .sent final.shared.world.trace = 2 ∧
      noted .bounded 7 .received final.shared.world.trace + final.shared.world.inner.queued =
        noted .bounded 7 .sent final.shared.world.trace := by
  have reached : ChannelReaches .bounded 7 0 { world := { inner := {} } } (_ : ChannelConfig Unit (Fin 3)) :=
    ⟨sentTwice, rfl⟩
  refine ⟨_, reached, rfl, returned_ledger ⟨⟨rfl, by decide⟩, rfl, rfl, rfl, rfl⟩ reached ?_⟩
  exact Fin.forall_fin_succ.mpr ⟨⟨_, rfl⟩, Fin.forall_fin_two.mpr ⟨⟨_, rfl⟩, ⟨_, rfl⟩⟩⟩

end Runs

end Laplace.Soundness
