import Mathlib.Algebra.Order.BigOperators.Group.Finset
import Mathlib.Algebra.Order.Group.Nat
import Laplace.Soundness.ChannelMoves

/-! # Closure is explained by the trace

The senders that tokio counts and those that the trace counts differ only by the uses that are between the two: a
sender that is cloned or dropped is in the hands of one use for a while. A clone borrows a living sender, so
that no clone is in progress once tokio has none left, and then the trace shows none either.
-/

namespace Laplace.Soundness

open Laplace.Machine Laplace.Model Laplace.Model.Runtime

variable {Value Process : Type} {flavor : ChannelFlavor} {resource : UInt64}

/-- How often the trace tells something. -/
def noted (flavor : ChannelFlavor) (resource : UInt64) (note : Note) (trace : List Event) : ℕ :=
  trace.countP fun event => noteOf flavor resource event = note

theorem noted_append (note : Note) (trace : List Event) (event : Event) :
    noted flavor resource note (trace ++ [event]) =
      noted flavor resource note trace + if noteOf flavor resource event = note then 1 else 0 := by
  simp only [noted, List.countP_append, List.countP_singleton, decide_eq_true_eq]

/-- A note moves what is shown, and no real sender. -/
theorem note_senders {note : Note} {stage later : ChannelStage Process} (moved : stage.say note = some later) :
    later.real = stage.real ∧
    (if note = .cloned then 1 else 0) + stage.shown = (if note = .dropped then 1 else 0) + later.shown ∧
      ∀ source, later.source = some source → stage.source = some source := by
  cases stage <;> cases note <;> cases moved
  case cloning.cloned => exact ⟨rfl, rfl, fun _ same => same⟩
  all_goals exact ⟨rfl, rfl, nofun⟩

variable [DecidableEq Process]

/-- An act moves the real senders, and shows nothing. -/
theorem act_senders {process : Process} {state next : ChannelState Process} {act : Act}
    {stage later : ChannelStage Process} (acts : Acts process state next act) (moved : stage.act act = some later)
    (least : stage.real ≤ state.senders) :
    next.senders + stage.real = state.senders + later.real ∧ later.shown = stage.shown ∧
      ∀ source, later.source = some source → stage.source = some source := by
  cases stage <;> cases act <;> cases moved
  case leaving.drop =>
    cases acts
    refine ⟨?_, rfl, nofun⟩
    simp only [ChannelStage.real] at least ⊢
    omega
  case idle.refuse | idle.deliver | idle.deny =>
    obtain ⟨-, rfl⟩ := acts
    exact ⟨rfl, rfl, nofun⟩
  all_goals
    cases acts
    exact ⟨rfl, rfl, nofun⟩

/-- A use between two operations hands on what it borrows. -/
theorem borrows_update {borrowed : Process → Option (SenderName Process)} {phases : Process → ChannelPhase Process}
    {process : Process} {later : ChannelPhase Process}
    (borrows : ∀ other source, (phases other).stage.source = some source → borrowed other = some source)
    (moved : ∀ source, later.stage.source = some source → borrowed process = some source) (other : Process)
    (source : SenderName Process) (isSource : (Function.update phases process later other).stage.source = some source) :
    borrowed other = some source := by
  rcases eq_or_ne other process with rfl | different
  · rw [Function.update_self] at isSource
    exact moved source isSource
  · rw [Function.update_of_ne different] at isSource
    exact borrows other source isSource

/-- A move of the stage leaves alone whether a use is spent. -/
theorem spent_kept (phases : Process → ChannelPhase Process) (process : Process) (stage : ChannelStage Process)
    (other : Process) :
    (Function.update phases process ((phases process).move stage) other).spent = (phases other).spent := by
  rcases eq_or_ne other process with rfl | different
  · rw [Function.update_self, ChannelPhase.move]
  · rw [Function.update_of_ne different]

variable [Fintype Process]

/-- The senders of tokio and of the trace, and who owns or borrows them. -/
structure SenderLedger (flavor : ChannelFlavor) (resource : UInt64) (shared : ChannelWorld Process)
    (phases : Process → ChannelPhase Process) : Prop where
  real : shared.world.inner.senders = shared.senders.card + ∑ process, (phases process).stage.real
  shown : 1 + noted flavor resource .cloned shared.world.trace =
    noted flavor resource .dropped shared.world.trace + shared.senders.card + ∑ process, (phases process).stage.shown
  borrows : ∀ process source, (phases process).stage.source = some source → shared.borrowed process = some source
  lent : ∀ process source, shared.borrowed process = some source → source ∈ shared.senders
  fresh : ∀ process, some process ∈ shared.senders → (phases process).spent = true

namespace SenderLedger

variable {shared next : ChannelWorld Process} {phases : Process → ChannelPhase Process} {process : Process}

omit [DecidableEq Process] in
/-- The part of one use in the real senders. -/
theorem least (ledger : SenderLedger flavor resource shared phases) (process : Process) :
    (phases process).stage.real ≤ shared.world.inner.senders := by
  have part := Finset.single_le_sum (f := fun other => (phases other).stage.real) (fun _ _ => Nat.zero_le _)
    (Finset.mem_univ process)
  have real := ledger.real
  omega

/-- A move of the stage by an act or a note. -/
theorem stage_moved (ledger : SenderLedger flavor resource shared phases) {stage : ChannelStage Process}
    (owners : SameOwners shared next)
    (real : next.world.inner.senders + (phases process).stage.real = shared.world.inner.senders + stage.real)
    {clones drops : ℕ}
    (cloned : noted flavor resource .cloned next.world.trace = noted flavor resource .cloned shared.world.trace + clones)
    (dropped : noted flavor resource .dropped next.world.trace =
      noted flavor resource .dropped shared.world.trace + drops)
    (shown : clones + (phases process).stage.shown = drops + stage.shown)
    (source : ∀ source, stage.source = some source → (phases process).stage.source = some source) :
    SenderLedger flavor resource next (Function.update phases process ((phases process).move stage)) := by
  have moved := total_update (fun phase => phase.stage.real) phases process ((phases process).move stage)
  have moved' := total_update (fun phase => phase.stage.shown) phases process ((phases process).move stage)
  have wasReal := ledger.real
  have wasShown := ledger.shown
  simp only [ChannelPhase.move] at moved moved'
  refine ⟨?_, ?_, ?_, ?_, ?_⟩
  · rw [owners.senders]
    simp only [ChannelPhase.move]
    omega
  · rw [owners.senders, cloned, dropped]
    simp only [ChannelPhase.move]
    omega
  · rw [owners.borrowed]
    exact borrows_update ledger.borrows fun name isSource => ledger.borrows process name (source name isSource)
  · rw [owners.borrowed, owners.senders]
    exact ledger.lent
  · intro other member
    rw [owners.senders] at member
    rw [spent_kept]
    exact ledger.fresh other member

/-- A sender goes from hand to hand. -/
theorem owners_moved (ledger : SenderLedger flavor resource shared phases) (later : ChannelPhase Process)
    (world : next.world = shared.world)
    (real : next.senders.card + later.stage.real = shared.senders.card + (phases process).stage.real)
    (shown : next.senders.card + later.stage.shown = shared.senders.card + (phases process).stage.shown) :
    next.world.inner.senders = next.senders.card + ∑ other, (Function.update phases process later other).stage.real ∧
    1 + noted flavor resource .cloned next.world.trace = noted flavor resource .dropped next.world.trace +
      next.senders.card + ∑ other, (Function.update phases process later other).stage.shown := by
  have moved := total_update (fun phase => phase.stage.real) phases process later
  have moved' := total_update (fun phase => phase.stage.shown) phases process later
  have wasReal := ledger.real
  have wasShown := ledger.shown
  rw [world]
  constructor <;> omega

/-- Every move keeps the ledger. -/
theorem move (ledger : SenderLedger flavor resource shared phases) {later : ChannelPhase Process}
    (moved : ChannelMove flavor resource process shared next (phases process) later) :
    SenderLedger flavor resource next (Function.update phases process later) := by
  have wasReal := ledger.real
  have wasShown := ledger.shown
  cases moved with
  | quiet inner trace owners =>
    rw [Function.update_eq_self]
    exact ⟨by rw [inner, owners.senders]; exact wasReal, by rw [trace, owners.senders]; exact wasShown,
      by rw [owners.borrowed]; exact ledger.borrows, by rw [owners.borrowed, owners.senders]; exact ledger.lent,
      by rw [owners.senders]; exact ledger.fresh⟩
  | act act stage moved acts trace owners closes denies =>
    obtain ⟨real, shown, source⟩ := act_senders acts moved (ledger.least process)
    exact ledger.stage_moved owners real (by rw [trace, Nat.add_zero]) (by rw [trace, Nat.add_zero])
      (by rw [shown]) source
  | note event stage moved inner trace owners =>
    obtain ⟨real, shown, source⟩ := note_senders moved
    exact ledger.stage_moved owners (by rw [inner, real]) (by rw [trace, noted_append]) (by rw [trace, noted_append])
      shown source
  | borrow source idle member world senders borrowed =>
    obtain ⟨real, shown⟩ := ledger.owners_moved ((phases process).move (.cloning source)) world
      (by rw [senders, idle]; rfl) (by rw [senders, idle]; rfl)
    refine ⟨real, shown, ?_, ?_, ?_⟩
    · rw [borrowed]
      intro other name isSource
      rcases eq_or_ne other process with rfl | different
      · rw [Function.update_self] at isSource ⊢
        exact isSource
      · rw [Function.update_of_ne different] at isSource ⊢
        exact ledger.borrows other name isSource
    · rw [borrowed, senders]
      intro other name isSource
      rcases eq_or_ne other process with rfl | different
      · rw [Function.update_self] at isSource
        exact Option.some.inj isSource ▸ member
      · rw [Function.update_of_ne different] at isSource
        exact ledger.lent other name isSource
    · intro other isMember
      rw [senders] at isMember
      rw [spent_kept]
      exact ledger.fresh other isMember
  | release owned world senders borrowed =>
    rw [Function.update_eq_self]
    refine ⟨by rw [world, senders]; exact wasReal, by rw [world, senders]; exact wasShown, ?_, ?_,
      by rw [senders]; exact ledger.fresh⟩
    · rw [borrowed]
      intro other name isSource
      have different : other ≠ process := by
        rintro rfl
        rw [owned] at isSource
        cases isSource
      rw [Function.update_of_ne different]
      exact ledger.borrows other name isSource
    · rw [borrowed, senders]
      intro other name isSource
      have different : other ≠ process := by
        rintro rfl
        rw [Function.update_self] at isSource
        cases isSource
      rw [Function.update_of_ne different] at isSource
      exact ledger.lent other name isSource
  | take name idle member free world senders borrowed =>
    have card := Finset.card_erase_add_one member
    obtain ⟨real, shown⟩ := ledger.owners_moved ((phases process).move .taken) world
      (by rw [senders, idle]; exact card) (by rw [senders, idle]; exact card)
    refine ⟨real, shown, ?_, ?_, ?_⟩
    · rw [borrowed]
      exact borrows_update ledger.borrows nofun
    · rw [borrowed, senders]
      intro other source isSource
      refine Finset.mem_erase.mpr ⟨?_, ledger.lent other source isSource⟩
      rintro rfl
      exact free other isSource
    · intro other isMember
      rw [senders] at isMember
      rw [spent_kept]
      exact ledger.fresh other (Finset.mem_of_mem_erase isMember)
  | put owned fresh world senders borrowed =>
    have new : some process ∉ shared.senders := by
      intro member
      rw [ledger.fresh process member] at fresh
      cases fresh
    have card := Finset.card_insert_of_notMem new
    obtain ⟨real, shown⟩ := ledger.owners_moved { (phases process) with stage := .idle, spent := true } world
      (by rw [senders, owned]; exact card) (by rw [senders, owned]; exact card)
    refine ⟨real, shown, ?_, ?_, ?_⟩
    · rw [borrowed]
      exact borrows_update ledger.borrows nofun
    · rw [borrowed, senders]
      exact fun other source isSource => Finset.mem_insert_of_mem (ledger.lent other source isSource)
    · intro other isMember
      rw [senders] at isMember
      rcases eq_or_ne other process with rfl | different
      · rw [Function.update_self]
      · rw [Function.update_of_ne different]
        refine ledger.fresh other ((Finset.mem_insert.mp isMember).resolve_left ?_)
        exact fun same => different (Option.some.inj same)

omit [DecidableEq Process] in
/-- A clone in progress has a living source. -/
theorem senders_of_source (ledger : SenderLedger flavor resource shared phases) {source : SenderName Process}
    (isSource : (phases process).stage.source = some source) : shared.world.inner.senders ≠ 0 := by
  have member := ledger.lent process source (ledger.borrows process source isSource)
  have positive := Finset.card_pos.mpr ⟨source, member⟩
  have real := ledger.real
  omega

omit [DecidableEq Process] in
/-- Once tokio has no sender left, the trace shows none. -/
theorem none_shown (ledger : SenderLedger flavor resource shared phases) (none : shared.world.inner.senders = 0) :
    1 + noted flavor resource .cloned shared.world.trace = noted flavor resource .dropped shared.world.trace := by
  have real := ledger.real
  have shown := ledger.shown
  have unreal : ∀ process, (phases process).stage.real = 0 := by
    intro process
    have part := ledger.least process
    omega
  have unshown : ∑ process, (phases process).stage.shown = 0 := by
    refine Finset.sum_eq_zero fun process _ => ?_
    have isUnreal := unreal process
    cases isStage : (phases process).stage
    case promised source => exact absurd none (ledger.senders_of_source (by rw [isStage]; rfl))
    case owned | taken =>
      rw [isStage] at isUnreal
      cases isUnreal
    all_goals rfl
  omega

omit [DecidableEq Process] in
/-- The trace never shows fewer than no sender. -/
theorem shown_le (ledger : SenderLedger flavor resource shared phases) :
    noted flavor resource .dropped shared.world.trace ≤ 1 + noted flavor resource .cloned shared.world.trace := by
  have shown := ledger.shown
  omega

end SenderLedger

/-- Whenever an operation of a receiver is reported closed, the trace before it shows that the channel was closed or
that no sender is left. -/
def Explained (flavor : ChannelFlavor) (resource : UInt64) : List Event → Prop :=
  Throughout fun before event => noteOf flavor resource event = .denied →
    noted flavor resource .closed before ≠ 0 ∨
      1 + noted flavor resource .cloned before = noted flavor resource .dropped before

/-- What a denied receiver was told is true: the channel was closed, or every sender is gone. -/
structure ClosureInvariant (flavor : ChannelFlavor) (resource : UInt64) (shared : ChannelWorld Process)
    (phases : Process → ChannelPhase Process) : Prop where
  explained : Explained flavor resource shared.world.trace
  denied : ∀ process, (phases process).stage = .denied →
    noted flavor resource .closed shared.world.trace ≠ 0 ∨ shared.world.inner.senders = 0
  closed : shared.world.inner.closed = true → noted flavor resource .closed shared.world.trace ≠ 0 ∨
    ∃ process, (phases process).stage = .closing
  closers : ∀ process, (phases process).stage = .closing → (phases process).isReceiver = true
  mpsc : shared.world.inner.closed = true → flavor.isMpsc = true
  single : ∀ process other, (phases process).isReceiver = true → (phases other).isReceiver = true → process = other

namespace ClosureInvariant

variable {shared next : ChannelWorld Process} {phases : Process → ChannelPhase Process} {process : Process}

omit [Fintype Process] in
/-- A move of the stage leaves alone who is the receiver. -/
theorem role_kept (phases : Process → ChannelPhase Process) (process : Process) {later : ChannelPhase Process}
    (role : later.isReceiver = (phases process).isReceiver) (other : Process) :
    (Function.update phases process later other).isReceiver = (phases other).isReceiver :=
  update_agrees ChannelPhase.isReceiver role other

omit [Fintype Process] in
theorem role_moved (phases : Process → ChannelPhase Process) (process : Process) (stage : ChannelStage Process)
    (other : Process) :
    (Function.update phases process ((phases process).move stage) other).isReceiver = (phases other).isReceiver :=
  @role_kept _ _ phases process ((phases process).move stage) rfl other

omit [Fintype Process] in
/-- A stage after a move. -/
theorem stage_after {later : ChannelPhase Process} {other : Process} {stage : ChannelStage Process}
    (isStage : (Function.update phases process later other).stage = stage) :
    other = process ∧ later.stage = stage ∨ other ≠ process ∧ (phases other).stage = stage := by
  rcases eq_or_ne other process with rfl | different
  · rw [Function.update_self] at isStage
    exact .inl ⟨rfl, isStage⟩
  · rw [Function.update_of_ne different] at isStage
    exact .inr ⟨different, isStage⟩

omit [Fintype Process] in
/-- A move that ends no denial and no closing, and that neither opens what is closed nor brings back senders. -/
theorem plain (invariant : ClosureInvariant flavor resource shared phases) {later : ChannelPhase Process}
    (role : later.isReceiver = (phases process).isReceiver)
    (undenied : later.stage ≠ .denied) (unclosing : later.stage ≠ .closing) (wasUnclosing : (phases process).stage ≠ .closing)
    (closed : next.world.inner.closed = shared.world.inner.closed)
    (senders : shared.world.inner.senders = 0 → next.world.inner.senders = 0)
    (noted_le : noted flavor resource .closed shared.world.trace ≤ noted flavor resource .closed next.world.trace)
    (explained : Explained flavor resource next.world.trace) :
    ClosureInvariant flavor resource next (Function.update phases process later) := by
  refine ⟨explained, fun other isDenied => ?_, fun isClosed => ?_, fun other isClosing => ?_, ?_, ?_⟩
  · rcases stage_after isDenied with ⟨-, same⟩ | ⟨-, before⟩
    · exact absurd same undenied
    · exact (invariant.denied other before).imp (fun some => by omega) senders
  · rcases invariant.closed (closed ▸ isClosed) with some | ⟨other, isClosing⟩
    · exact .inl (by omega)
    · refine .inr ⟨other, ?_⟩
      have different : other ≠ process := by
        rintro rfl
        exact wasUnclosing isClosing
      rw [Function.update_of_ne different]
      exact isClosing
  · rcases stage_after isClosing with ⟨-, same⟩ | ⟨different, before⟩
    · exact absurd same unclosing
    · rw [role_kept phases process role]
      exact invariant.closers other before
  · rw [closed]
    exact invariant.mpsc
  · intro one two
    rw [role_kept phases process role, role_kept phases process role]
    exact invariant.single one two

omit [Fintype Process] in
/-- The receiver closes the channel. -/
theorem closes (invariant : ClosureInvariant flavor resource shared phases) (isMpsc : flavor.isMpsc = true)
    (isReceiver : (phases process).isReceiver = true)
    (acts : next.world.inner = { shared.world.inner with closed := true })
    (trace : next.world.trace = shared.world.trace) :
    ClosureInvariant flavor resource next (Function.update phases process ((phases process).move .closing)) := by
  refine ⟨by rw [trace]; exact invariant.explained, fun other isDenied => ?_, fun _ => ?_, fun other isClosing => ?_,
    fun _ => isMpsc, ?_⟩
  · rcases stage_after isDenied with ⟨-, same⟩ | ⟨-, before⟩
    · cases same
    · rw [trace, acts]
      exact invariant.denied other before
  · exact .inr ⟨process, by rw [Function.update_self]; rfl⟩
  · rw [role_moved]
    rcases stage_after isClosing with ⟨rfl, -⟩ | ⟨-, before⟩
    · exact isReceiver
    · exact invariant.closers other before
  · intro one two
    rw [role_moved, role_moved]
    exact invariant.single one two

omit [Fintype Process] in
/-- The receiver is told that the channel is closed. -/
theorem denies (invariant : ClosureInvariant flavor resource shared phases) (idle : (phases process).stage = .idle)
    (isReceiver : flavor.isMpsc = true → (phases process).isReceiver = true)
    (ended : shared.world.inner.ended = true) (acts : next.world.inner = shared.world.inner)
    (trace : next.world.trace = shared.world.trace) :
    ClosureInvariant flavor resource next (Function.update phases process ((phases process).move .denied)) := by
  have isTrue : noted flavor resource .closed shared.world.trace ≠ 0 ∨ shared.world.inner.senders = 0 := by
    rw [ChannelState.ended, Bool.or_eq_true, beq_iff_eq] at ended
    rcases ended with isClosed | noSenders
    · rcases invariant.closed isClosed with isNoted | ⟨other, isClosing⟩
      · exact .inl isNoted
      · -- only the receiver closes, and the receiver is the one that was denied
        have same := invariant.single other process (invariant.closers other isClosing)
          (isReceiver (invariant.mpsc isClosed))
        rw [same, idle] at isClosing
        cases isClosing
    · exact .inr noSenders
  refine ⟨by rw [trace]; exact invariant.explained, fun other isDenied => ?_, fun isClosed => ?_,
    fun other isClosing => ?_, by rw [acts]; exact invariant.mpsc, ?_⟩
  · rw [trace, acts]
    rcases stage_after isDenied with ⟨rfl, -⟩ | ⟨-, before⟩
    · exact isTrue
    · exact invariant.denied other before
  · rw [acts] at isClosed
    rw [trace]
    refine (invariant.closed isClosed).imp id fun ⟨other, isClosing⟩ => ⟨other, ?_⟩
    have different : other ≠ process := by
      rintro rfl
      rw [idle] at isClosing
      cases isClosing
    rw [Function.update_of_ne different]
    exact isClosing
  · rw [role_moved]
    rcases stage_after isClosing with ⟨-, same⟩ | ⟨-, before⟩
    · cases same
    · exact invariant.closers other before
  · intro one two
    rw [role_moved, role_moved]
    exact invariant.single one two

omit [Fintype Process] in
/-- The closing is reported. -/
theorem closing_noted (invariant : ClosureInvariant flavor resource shared phases) {event : Event}
    (isNote : noteOf flavor resource event = .closed) (inner : next.world.inner = shared.world.inner)
    (trace : next.world.trace = shared.world.trace ++ [event]) :
    ClosureInvariant flavor resource next (Function.update phases process ((phases process).move .idle)) := by
  have isNoted : noted flavor resource .closed next.world.trace ≠ 0 := by
    rw [trace, noted_append, if_pos isNote]
    omega
  refine ⟨?_, fun _ _ => .inl isNoted, fun _ => .inl isNoted, fun other isClosing => ?_, by rw [inner]; exact invariant.mpsc, ?_⟩
  · rw [trace]
    refine Throughout.append invariant.explained fun isDenied => ?_
    rw [isNote] at isDenied
    cases isDenied
  · rw [role_moved]
    rcases stage_after isClosing with ⟨-, same⟩ | ⟨-, before⟩
    · cases same
    · exact invariant.closers other before
  · intro one two
    rw [role_moved, role_moved]
    exact invariant.single one two

/-- Every act keeps the invariant. -/
theorem act_kept (invariant : ClosureInvariant flavor resource shared phases)
    (ledger : SenderLedger flavor resource shared phases) {act : Act} {stage : ChannelStage Process}
    (moved : (phases process).stage.act act = some stage)
    (acts : Acts process shared.world.inner next.world.inner act) (trace : next.world.trace = shared.world.trace)
    (closes : act = .close → flavor.isMpsc = true ∧ (phases process).isReceiver = true)
    (denies : act = .deny → flavor.isMpsc = true → (phases process).isReceiver = true) :
    ClosureInvariant flavor resource next (Function.update phases process ((phases process).move stage)) := by
  have plain : (phases process).stage ≠ .closing → stage ≠ .denied → stage ≠ .closing →
      next.world.inner.closed = shared.world.inner.closed →
      (shared.world.inner.senders = 0 → next.world.inner.senders = 0) →
      ClosureInvariant flavor resource next (Function.update phases process ((phases process).move stage)) := by
    intro wasUnclosing undenied unclosing sameClosed senders
    exact invariant.plain rfl undenied unclosing wasUnclosing sameClosed senders (by rw [trace])
      (by rw [trace]; exact invariant.explained)
  cases wasStage : (phases process).stage <;> rw [wasStage] at moved plain <;> cases act <;> cases moved
  case idle.close.refl => exact invariant.closes (closes rfl).1 (closes rfl).2 acts trace
  case idle.deny.refl => exact invariant.denies wasStage (denies rfl) acts.1 acts.2 trace
  case cloning.clone.refl source | promised.clone.refl source =>
    have alive := ledger.senders_of_source (by rw [wasStage]; rfl)
    exact plain nofun nofun nofun (by rw [acts]) fun none => absurd none alive
  case leaving.drop.refl =>
    refine plain nofun nofun nofun (by rw [acts]) fun none => ?_
    rw [acts]
    dsimp only
    omega
  case idle.refuse.refl | idle.deliver.refl =>
    exact plain nofun nofun nofun (by rw [acts.2]) (by rw [acts.2]; exact id)
  case idle.accept.refl => exact plain nofun nofun nofun (by rw [acts]; rfl) (by rw [acts]; exact id)
  case idle.nothing.refl | departing.dropReceiver.refl =>
    exact plain nofun nofun nofun (by rw [acts]) (by rw [acts]; exact id)

/-- Every note keeps the invariant. -/
theorem note_kept (invariant : ClosureInvariant flavor resource shared phases)
    (ledger : SenderLedger flavor resource shared phases) {event : Event} {stage : ChannelStage Process}
    (moved : (phases process).stage.say (noteOf flavor resource event) = some stage)
    (inner : next.world.inner = shared.world.inner) (trace : next.world.trace = shared.world.trace ++ [event]) :
    ClosureInvariant flavor resource next (Function.update phases process ((phases process).move stage)) := by
  have plain : (phases process).stage ≠ .closing → stage ≠ .denied → stage ≠ .closing →
      (noteOf flavor resource event = .denied → (phases process).stage = .denied) →
      ClosureInvariant flavor resource next (Function.update phases process ((phases process).move stage)) := by
    intro wasUnclosing undenied unclosing wasDenied
    refine invariant.plain rfl undenied unclosing wasUnclosing (by rw [inner]) (by rw [inner]; exact id) ?_ ?_
    · rw [trace, noted_append]
      omega
    · rw [trace]
      refine Throughout.append invariant.explained fun isDenied => ?_
      exact (invariant.denied process (wasDenied isDenied)).imp id ledger.none_shown
  cases isNote : noteOf flavor resource event <;> rw [isNote] at moved plain <;>
    cases wasStage : (phases process).stage <;> rw [wasStage] at moved plain <;> cases moved
  case closed.closing.refl => exact invariant.closing_noted isNote inner trace
  case denied.denied.refl => exact plain nofun nofun nofun fun _ => rfl
  all_goals exact plain nofun nofun nofun nofun

/-- Every move keeps the invariant. -/
theorem move (invariant : ClosureInvariant flavor resource shared phases)
    (ledger : SenderLedger flavor resource shared phases) {later : ChannelPhase Process}
    (moved : ChannelMove flavor resource process shared next (phases process) later) :
    ClosureInvariant flavor resource next (Function.update phases process later) := by
  have owned : next.world = shared.world → later.isReceiver = (phases process).isReceiver → later.stage ≠ .denied →
      later.stage ≠ .closing → (phases process).stage ≠ .closing →
      ClosureInvariant flavor resource next (Function.update phases process later) := by
    intro world role undenied unclosing wasUnclosing
    exact invariant.plain role undenied unclosing wasUnclosing (by rw [world]) (by rw [world]; exact id)
      (by rw [world]) (by rw [world]; exact invariant.explained)
  cases moved with
  | quiet inner trace owners =>
    rw [Function.update_eq_self]
    obtain ⟨explained, denied, closed, closers, mpsc, single⟩ := invariant
    rw [← inner] at denied closed mpsc
    rw [← trace] at explained denied closed
    exact ⟨explained, denied, closed, closers, mpsc, single⟩
  | act act stage moved acts trace owners closes denies => exact invariant.act_kept ledger moved acts trace closes denies
  | note event stage moved inner trace owners => exact invariant.note_kept ledger moved inner trace
  | borrow source idle member world senders borrowed => exact owned world rfl nofun nofun (by rw [idle]; nofun)
  | release isOwned world senders borrowed =>
    exact owned world rfl (by rw [isOwned]; nofun) (by rw [isOwned]; nofun) (by rw [isOwned]; nofun)
  | take name idle member free world senders borrowed => exact owned world rfl nofun nofun (by rw [idle]; nofun)
  | put isOwned fresh world senders borrowed => exact owned world rfl nofun nofun (by rw [isOwned]; nofun)

end ClosureInvariant

section Runs

/-- A new channel: one sender and its receiver, a hook installed, and nothing reported. -/
structure ChannelStart (shared : ChannelWorld Process) : Prop where
  hooked : Hooked shared.world
  silent : shared.world.trace = []
  channel : shared.world.inner = {}
  senders : shared.senders = {none}
  borrowed : shared.borrowed = fun _ => none

abbrev ChannelConfig (Value Process : Type) :=
  System.Config (OwnedEffect Value Process) OwnedReply Process ChannelUse (ChannelWorld Process)

/-- The uses of the channel before the run; one of them is the `mpsc` receiver. -/
def channelInitial (receiver : Process) (shared : ChannelWorld Process) : ChannelConfig Value Process :=
  ⟨shared, fun process => .done { isReceiver := process = receiver }⟩

def ChannelReaches (flavor : ChannelFlavor) (resource : UInt64) (receiver : Process) (shared : ChannelWorld Process)
    (final : ChannelConfig Value Process) : Prop :=
  ∃ actions, run? (channelSystem Value flavor resource).step (channelInitial receiver shared) actions = some final

/-- A hook stays installed. -/
theorem hooked_answer (protocol : Protocol (OwnedEffect Value Process) OwnedReply (ChannelPhase Process))
    (isProtocol : protocol = channelProtocol Value flavor resource) {shared next : ChannelWorld Process}
    {process : Process} {effect : OwnedEffect Value Process} {choice : ChannelAnswer Value} {reply : OwnedReply effect}
    (hooked : Hooked shared.world) (answered : shared.answer process effect choice = some (reply, next)) :
    protocol.possible effect reply ∧ Hooked next.world := by
  subst isProtocol
  rcases effect with effect | effect
  · obtain ⟨⟨reply', world⟩, inWorld, same⟩ := Option.map_eq_some_iff.mp answered
    obtain ⟨rfl, rfl⟩ := Prod.mk.inj same
    exact hooked.answer inWorld
  · cases effect with
    | borrow | take =>
      simp only [ChannelWorld.answer] at answered
      split at answered
      · cases answered
        exact ⟨trivial, hooked⟩
      · cases answered
    | release | put =>
      cases answered
      exact ⟨trivial, hooked⟩

/-- An invariant that every move keeps holds in every state reached. -/
theorem channel_invariant_of_run (invariant : ChannelWorld Process → (Process → ChannelPhase Process) → Prop)
    {receiver : Process} {shared : ChannelWorld Process} {final : ChannelConfig Value Process}
    (start : ChannelStart shared)
    (initially : invariant shared fun process => { isReceiver := process = receiver })
    (kept : ∀ shared next phases process later, invariant shared phases →
      ChannelMove flavor resource process shared next (phases process) later →
        invariant next (Function.update phases process later))
    (reached : ChannelReaches flavor resource receiver shared final) :
    ∃ phases : Process → ChannelPhase Process, System.Phased (channelProtocol Value flavor resource)
      (fun later use => ChannelRest flavor resource later use)
      (fun shared phases => Hooked shared.world ∧ invariant shared phases) final phases := by
  obtain ⟨actions, reached⟩ := reached
  have keeps : (channelSystem Value flavor resource).Keeps (channelProtocol Value flavor resource)
      (fun (shared : ChannelWorld Process) phases => Hooked shared.world ∧ invariant shared phases) := by
    intro shared phases process effect choice reply next holds answered
    obtain ⟨isPossible, hooked⟩ := hooked_answer (channelProtocol Value flavor resource) rfl holds.1 answered
    refine ⟨isPossible, fun later permitted moved => ⟨hooked, ?_⟩⟩
    exact kept _ _ _ _ _ holds.2 (channelMove_of_answer answered permitted moved)
  have unused : System.Phased (channelProtocol Value flavor resource)
      (fun later use => ChannelRest flavor resource later use)
      (fun shared phases => Hooked shared.world ∧ invariant shared phases) (channelInitial receiver shared)
      fun process => { isReceiver := process = receiver } :=
    ⟨⟨start.hooked, initially⟩, fun process => Program.conforms_done.mpr ⟨rfl, rfl, fun _ => rfl, nofun⟩⟩
  exact System.phases_of_run (fun _ _ _ _ _ started rest => channelStart_conforms started rest) keeps unused reached

theorem ledger_start {receiver : Process} {shared : ChannelWorld Process} (start : ChannelStart shared) :
    SenderLedger flavor resource shared fun process => { isReceiver := process = receiver } := by
  refine ⟨?_, ?_, nofun, ?_, ?_⟩
  · simp [start.channel, start.senders, ChannelStage.real]
  · simp [start.silent, start.senders, noted, ChannelStage.shown]
  · rw [start.borrowed]
    nofun
  · rw [start.senders]
    intro process member
    cases Finset.mem_singleton.mp member

omit [Fintype Process] in
theorem closure_start {receiver : Process} {shared : ChannelWorld Process} (start : ChannelStart shared) :
    ClosureInvariant flavor resource shared fun process => { isReceiver := process = receiver } := by
  refine ⟨?_, nofun, ?_, nofun, ?_, ?_⟩
  · rw [start.silent]
    exact throughout_nil _
  · rw [start.channel]
    nofun
  · rw [start.channel]
    nofun
  · intro process other one two
    exact (of_decide_eq_true one).trans (of_decide_eq_true two).symm

variable {receiver : Process} {shared : ChannelWorld Process} {final : ChannelConfig Value Process}

/-- Every prefix of the trace was the whole trace at some point of the run. -/
theorem channel_prefix_reached (silent : shared.world.trace = [])
    (reached : ChannelReaches flavor resource receiver shared final) {part : List Event}
    (isPart : part <+: final.shared.world.trace) :
    ∃ config : ChannelConfig Value Process, ChannelReaches flavor resource receiver shared config ∧
      config.shared.world.trace = part := by
  obtain ⟨actions, reached⟩ := reached
  have grows : ∀ (config : ChannelConfig Value Process) action next,
      (channelSystem Value flavor resource).step config action = some next →
      next.shared.world.trace = config.shared.world.trace ∨
        ∃ event, next.shared.world.trace = config.shared.world.trace ++ [event] := by
    intro config action next stepped
    obtain ⟨_, _, _, _, -, -, -, rfl⟩ | ⟨process, choice, effect, _, reply, shared, -, -, answered, rfl⟩ :=
      System.step_cases stepped
    · exact .inl rfl
    · rcases effect with effect | effect
      · obtain ⟨⟨reply', world⟩, inWorld, same⟩ := Option.map_eq_some_iff.mp answered
        obtain ⟨-, rfl⟩ := Prod.mk.inj same
        exact (answer_trace inWorld).imp id fun ⟨event, _, appended⟩ => ⟨event, appended⟩
      · cases effect with
        | borrow | take =>
          simp only [channelSystem, ChannelWorld.answer] at answered
          split at answered <;> cases answered
          exact .inl rfl
        | release | put =>
          cases answered
          exact .inl rfl
  obtain ⟨past, config, before, same⟩ := run?_record (fun config => config.shared.world.trace) grows silent reached isPart
  exact ⟨config, ⟨past, before⟩, same⟩

/-- The two invariants of the senders hold in every state reached. -/
theorem closure_of_run (start : ChannelStart shared) (reached : ChannelReaches flavor resource receiver shared final) :
    ∃ phases : Process → ChannelPhase Process, SenderLedger flavor resource final.shared phases ∧
      ClosureInvariant flavor resource final.shared phases := by
  obtain ⟨phases, ⟨-, holds⟩, -⟩ := channel_invariant_of_run
    (fun shared phases => SenderLedger flavor resource shared phases ∧ ClosureInvariant flavor resource shared phases)
    start ⟨ledger_start start, closure_start start⟩
    (fun _ _ _ _ _ holds moved => ⟨holds.1.move moved, holds.2.move holds.1 moved⟩) reached
  exact ⟨phases, holds⟩

/-- Every closure is explained, and the sender ledger is never negative. -/
theorem channel_closure_explained (start : ChannelStart shared)
    (reached : ChannelReaches flavor resource receiver shared final) :
    Explained flavor resource final.shared.world.trace ∧
    ∀ part, part <+: final.shared.world.trace →
      noted flavor resource .dropped part ≤ 1 + noted flavor resource .cloned part := by
  obtain ⟨phases, -, closure⟩ := closure_of_run start reached
  refine ⟨closure.explained, fun part isPart => ?_⟩
  obtain ⟨config, before, rfl⟩ := channel_prefix_reached start.silent reached isPart
  obtain ⟨phases, ledger, -⟩ := closure_of_run start before
  exact ledger.shown_le

end Runs

end Laplace.Soundness
