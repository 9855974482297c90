import Laplace.Model.Reference
import Mathlib.Data.List.Induction
import Mathlib.Data.Fin.VecNotation
import Mathlib.Data.Fintype.Basic
import Mathlib.Logic.Equiv.Fin.Rotate
import Mathlib.Tactic.FinCases

/-! # Exactness of the reference verifier

The scan is incremental and stops early, yet its verdict is a symmetric property of the whole
trace: a bug is reported exactly when two nested acquisitions take two locks in opposite orders
with conflicting modes. Holds depend on a thread's own events only, so the verdict is the same for
every interleaving. It also delimits the checker: a cycle of two locks whose holds are on record is
always reported, a longer one only if some two of its edges, or of the rest of the trace, happen to
reverse each other.
-/

namespace Laplace.Soundness

open Model

/-- The lock operations of one thread, in trace order. -/
def threadOps (threadId : UInt64) (events : List ProbeEvent) : List LockOp :=
  events.filterMap fun event => (lockOp? event).filter (·.threadId == threadId)

/-- The lock events of one thread, in trace order. -/
def lockEventsOf (threadId : UInt64) (events : List ProbeEvent) : List ProbeEvent :=
  events.filter fun event => (lockOp? event).any (·.threadId == threadId)

/-- The hold list of a thread after a trace, computed from its own events alone. -/
def threadHolds (threadId : UInt64) (events : List ProbeEvent) : List Hold :=
  (threadOps threadId events).foldl updateHolds []

/-- Some event acquires `edge.acquired` while the hold list of its thread has `edge.held`. -/
def NestedAcquire (events : List ProbeEvent) (edge : OrderEdge) : Prop :=
  ∃ before event after op, events = before ++ event :: after ∧ lockOp? event = some op ∧
    op.isAcquire = true ∧ op.resource = edge.acquired ∧ op.mode = edge.acquiredMode ∧
    (edge.held, edge.heldMode) ∈ threadHolds op.threadId before ∧ edge.held ≠ edge.acquired

/-- The two edges take their locks in opposite orders, and each wait blocks on the other's hold. -/
def Reverses (first second : OrderEdge) : Prop :=
  second.held = first.acquired ∧ second.acquired = first.held ∧
    modesConflict first.acquiredMode second.heldMode = true ∧
    modesConflict first.heldMode second.acquiredMode = true

def ReversedPair (events : List ProbeEvent) : Prop :=
  ∃ first second, NestedAcquire events first ∧ NestedAcquire events second ∧ Reverses first second

theorem modesConflict_comm (a b : HoldMode) : modesConflict a b = modesConflict b a := by
  cases a <;> cases b <;> rfl

theorem Reverses.symm {first second : OrderEdge} (pair : Reverses first second) :
    Reverses second first := by
  obtain ⟨held, acquired, forward, backward⟩ := pair
  refine ⟨acquired.symm, held.symm, ?_, ?_⟩
  · rw [modesConflict_comm]; exact backward
  · rw [modesConflict_comm]; exact forward

/-- `closes` is the Boolean reversal test against the edge that is about to be stored. -/
theorem closes_iff (theirs : OrderEdge) (resource : String) (mode : HoldMode) (prior : String)
    (priorMode : HoldMode) :
    theirs.closes resource mode prior priorMode = true ↔
      Reverses theirs ⟨prior, priorMode, resource, mode⟩ := by
  simp only [OrderEdge.closes, Reverses, Bool.and_eq_true, beq_iff_eq, modesConflict_comm mode]
  constructor
  · rintro ⟨⟨⟨held, acquired⟩, ours⟩, theirs⟩
    exact ⟨acquired.symm, held.symm, theirs, ours⟩
  · rintro ⟨acquired, held, theirs, ours⟩
    exact ⟨⟨⟨held.symm, acquired.symm⟩, ours⟩, theirs⟩

/-! ## Hold lists and edges along a growing trace -/

theorem threadOps_append (threadId : UInt64) (first second : List ProbeEvent) :
    threadOps threadId (first ++ second) = threadOps threadId first ++ threadOps threadId second := by
  simp only [threadOps, List.filterMap_append]

theorem threadOps_cons (threadId : UInt64) (event : ProbeEvent) (rest : List ProbeEvent) :
    threadOps threadId (event :: rest) =
      match lockOp? event with
      | some op => if op.threadId = threadId then op :: threadOps threadId rest else threadOps threadId rest
      | none => threadOps threadId rest := by
  simp only [threadOps, List.filterMap_cons]
  cases lockOp? event with
  | none => rfl
  | some op =>
    by_cases same : op.threadId = threadId
    · simp only [Option.filter_some, same, beq_self_eq_true, ↓reduceIte]
    · simp only [Option.filter_some, beq_eq_false_iff_ne.mpr same, Bool.false_eq_true, ↓reduceIte, if_neg same]

theorem threadHolds_snoc (threadId : UInt64) (events : List ProbeEvent) (event : ProbeEvent) :
    threadHolds threadId (events ++ [event]) =
      match lockOp? event with
      | some op => if op.threadId = threadId then updateHolds (threadHolds threadId events) op
          else threadHolds threadId events
      | none => threadHolds threadId events := by
  simp only [threadHolds, threadOps_append, List.foldl_append, threadOps_cons]
  cases lockOp? event with
  | none => rfl
  | some op =>
    by_cases same : op.threadId = threadId
    · simp only [same, ↓reduceIte]
      rfl
    · simp only [if_neg same]
      rfl

/-- The edges an event adds to the graph of the trace before it. -/
def AddsEdge (events : List ProbeEvent) (event : ProbeEvent) (edge : OrderEdge) : Prop :=
  ∃ op, lockOp? event = some op ∧ op.isAcquire = true ∧ op.resource = edge.acquired ∧
    op.mode = edge.acquiredMode ∧ (edge.held, edge.heldMode) ∈ threadHolds op.threadId events ∧
    edge.held ≠ edge.acquired

theorem NestedAcquire.append {events : List ProbeEvent} {edge : OrderEdge}
    (nested : NestedAcquire events edge) (rest : List ProbeEvent) :
    NestedAcquire (events ++ rest) edge := by
  obtain ⟨before, event, after, op, split, facts⟩ := nested
  exact ⟨before, event, after ++ rest, op, by rw [split, List.append_assoc, List.cons_append], facts⟩

theorem nestedAcquire_snoc (events : List ProbeEvent) (event : ProbeEvent) (edge : OrderEdge) :
    NestedAcquire (events ++ [event]) edge ↔ NestedAcquire events edge ∨ AddsEdge events event edge := by
  constructor
  · rintro ⟨before, last, after, op, split, facts⟩
    -- the acquiring event is the new one exactly when nothing follows it
    rcases List.eq_nil_or_concat after with rfl | ⟨inner, final, rfl⟩
    · obtain ⟨rfl, same⟩ := List.append_inj' split rfl
      obtain rfl := (List.cons.inj same).1
      exact .inr ⟨op, facts⟩
    · rw [List.concat_eq_append, ← List.cons_append, ← List.append_assoc] at split
      obtain ⟨rfl, -⟩ := List.append_inj' split rfl
      exact .inl ⟨before, last, inner, op, rfl, facts⟩
  · rintro (nested | ⟨op, facts⟩)
    · exact nested.append [event]
    · exact ⟨events, event, [], op, rfl, facts⟩

/-- Two edges of one event never reverse each other: both acquire the same resource. -/
theorem AddsEdge.not_reverses {events : List ProbeEvent} {event : ProbeEvent} {first second : OrderEdge}
    (left : AddsEdge events event first) (right : AddsEdge events event second) :
    ¬ Reverses first second := by
  rintro ⟨held, -⟩
  obtain ⟨op, classified, -, acquired, -⟩ := left
  obtain ⟨op', classified', -, acquired', -, -, distinct⟩ := right
  obtain rfl := Option.some.inj (classified.symm.trans classified')
  exact distinct (held.trans (acquired.symm.trans acquired'))

theorem reversedPair_snoc (events : List ProbeEvent) (event : ProbeEvent) :
    ReversedPair (events ++ [event]) ↔ ReversedPair events ∨
      ∃ stored added, NestedAcquire events stored ∧ AddsEdge events event added ∧ Reverses stored added := by
  constructor
  · rintro ⟨first, second, left, right, pair⟩
    rcases (nestedAcquire_snoc _ _ _).mp left with left | left <;>
      rcases (nestedAcquire_snoc _ _ _).mp right with right | right
    · exact .inl ⟨first, second, left, right, pair⟩
    · exact .inr ⟨first, second, left, right, pair⟩
    · exact .inr ⟨second, first, right, left, pair.symm⟩
    · exact absurd pair (left.not_reverses right)
  · rintro (⟨first, second, left, right, pair⟩ | ⟨stored, added, left, right, pair⟩)
    · exact ⟨first, second, left.append _, right.append _, pair⟩
    · exact ⟨stored, added, left.append _, (nestedAcquire_snoc _ _ _).mpr (.inr right), pair⟩

/-! ## The scan invariant -/

/-- Edges that the inner loop stores for the holds `held`. -/
private def FromHolds (resource : String) (mode : HoldMode) (held : List Hold) (edge : OrderEdge) : Prop :=
  (edge.held, edge.heldMode) ∈ held ∧ edge.held ≠ resource ∧ edge.acquired = resource ∧ edge.acquiredMode = mode

private theorem fromHolds_cons (resource : String) (mode : HoldMode) (prior : String) (priorMode : HoldMode)
    (rest : List Hold) (edge : OrderEdge) :
    FromHolds resource mode ((prior, priorMode) :: rest) edge ↔
      (prior ≠ resource ∧ edge = ⟨prior, priorMode, resource, mode⟩) ∨ FromHolds resource mode rest edge := by
  rcases edge with ⟨held, heldMode, acquired, acquiredMode⟩
  simp only [FromHolds, List.mem_cons, Prod.mk.injEq, OrderEdge.mk.injEq]
  constructor
  · rintro ⟨⟨rfl, rfl⟩ | member, distinct, rfl, rfl⟩
    · exact .inl ⟨distinct, rfl, rfl, rfl, rfl⟩
    · exact .inr ⟨member, distinct, rfl, rfl⟩
  · rintro (⟨distinct, rfl, rfl, rfl, rfl⟩ | ⟨member, distinct, rfl, rfl⟩)
    · exact ⟨.inl ⟨rfl, rfl⟩, distinct, rfl, rfl⟩
    · exact ⟨.inr member, distinct, rfl, rfl⟩

/-- What the inner loop did with the holds `held`: it fails only on a reversed stored edge, and
otherwise it has stored one edge per hold and found none reversed. -/
private def Recorded (resource : String) (mode : HoldMode) (held : List Hold) (edges : List OrderEdge) :
    Except String (List OrderEdge) → Prop
  | .error _ => ∃ stored added, stored ∈ edges ∧ FromHolds resource mode held added ∧ Reverses stored added
  | .ok result => (∀ edge, edge ∈ result ↔ edge ∈ edges ∨ FromHolds resource mode held edge) ∧
      ∀ stored added, stored ∈ edges → FromHolds resource mode held added → ¬ Reverses stored added

private theorem recordEdges_spec (resource : String) (mode : HoldMode) (held : List Hold)
    (edges : List OrderEdge) : Recorded resource mode held edges (recordEdges resource mode held edges) := by
  induction held generalizing edges with
  | nil =>
    refine ⟨fun edge => ?_, ?_⟩
    · simp [FromHolds]
    · rintro stored added - ⟨member, -⟩
      exact absurd member List.not_mem_nil
  | cons head rest ih =>
    rcases head with ⟨prior, priorMode⟩
    rw [recordEdges]
    by_cases same : prior = resource
    · -- a hold of the acquired resource itself is skipped
      have skip (edge : OrderEdge) : FromHolds resource mode ((prior, priorMode) :: rest) edge ↔
          FromHolds resource mode rest edge := by
        rw [fromHolds_cons, or_iff_right (fun absurdity => absurdity.1 same)]
      have tail := ih edges
      rw [if_pos (beq_iff_eq.mpr same)]
      cases result : recordEdges resource mode rest edges with
      | error cycle =>
        rw [result] at tail
        obtain ⟨stored, added, member, fresh, pair⟩ := tail
        exact ⟨stored, added, member, (skip added).mpr fresh, pair⟩
      | ok final =>
        rw [result] at tail
        refine ⟨fun edge => ?_, fun stored added member fresh => ?_⟩
        · rw [tail.1 edge, skip]
        · exact tail.2 stored added member ((skip added).mp fresh)
    · rw [if_neg (fun equal => same (beq_iff_eq.mp equal))]
      have head : FromHolds resource mode ((prior, priorMode) :: rest) ⟨prior, priorMode, resource, mode⟩ :=
        (fromHolds_cons ..).mpr (.inl ⟨same, rfl⟩)
      by_cases cycle : edges.any (·.closes resource mode prior priorMode) = true
      · rw [if_pos cycle]
        obtain ⟨stored, member, closes⟩ := List.any_eq_true.mp cycle
        exact ⟨stored, _, member, head, (closes_iff ..).mp closes⟩
      · rw [if_neg cycle]
        have open' : ∀ stored ∈ edges, ¬ Reverses stored ⟨prior, priorMode, resource, mode⟩ :=
          fun stored member pair => cycle (List.any_eq_true.mpr ⟨stored, member, (closes_iff ..).mpr pair⟩)
        -- an edge stored by this loop starts at another resource, so it closes nothing later on
        have inert : ∀ added, FromHolds resource mode rest added →
            ¬ Reverses ⟨prior, priorMode, resource, mode⟩ added :=
          fun added fresh pair => same (pair.2.1.symm.trans fresh.2.2.1)
        have tail := ih (edges.insert ⟨prior, priorMode, resource, mode⟩)
        cases result : recordEdges resource mode rest (edges.insert ⟨prior, priorMode, resource, mode⟩) with
        | error report =>
          rw [result] at tail
          obtain ⟨stored, added, member, fresh, pair⟩ := tail
          rcases List.mem_insert_iff.mp member with rfl | member
          · exact absurd pair (inert added fresh)
          · exact ⟨stored, added, member, (fromHolds_cons ..).mpr (.inr fresh), pair⟩
        | ok final =>
          rw [result] at tail
          refine ⟨fun edge => ?_, fun stored added member fresh => ?_⟩
          · rw [tail.1 edge, List.mem_insert_iff, fromHolds_cons]
            simp only [same, ne_eq, not_false_eq_true, true_and]
            tauto
          · rcases (fromHolds_cons ..).mp fresh with ⟨-, rfl⟩ | fresh
            · exact open' stored member
            · exact tail.2 stored added (List.mem_insert_of_mem member) fresh

/-- The incremental state describes the trace read so far. -/
structure Tracks (events : List ProbeEvent) (state : ScanState) : Prop where
  holds : ∀ threadId, state.heldByThread threadId = threadHolds threadId events
  edges : ∀ edge, edge ∈ state.orderEdges ↔ NestedAcquire events edge

theorem tracks_init : Tracks [] ScanState.init where
  holds _ := rfl
  edges edge := by
    simp only [ScanState.init, List.not_mem_nil, NestedAcquire, false_iff]
    rintro ⟨before, event, after, op, split, -⟩
    exact absurd split (by simp)

/-- What one event did to the description of the trace before it. -/
private def Advanced (events : List ProbeEvent) (event : ProbeEvent) : Except String ScanState → Prop
  | .error _ => ∃ stored added, NestedAcquire events stored ∧ AddsEdge events event added ∧
      Reverses stored added
  | .ok next => Tracks (events ++ [event]) next ∧
      ∀ stored added, NestedAcquire events stored → AddsEdge events event added → ¬ Reverses stored added

private theorem addsEdge_iff_fromHolds (events : List ProbeEvent) {event : ProbeEvent} {op : LockOp}
    (classified : lockOp? event = some op) (acquires : op.isAcquire = true) (edge : OrderEdge) :
    AddsEdge events event edge ↔
      FromHolds op.resource op.mode (threadHolds op.threadId events) edge := by
  constructor
  · rintro ⟨other, classified', -, resource, mode, member, distinct⟩
    obtain rfl := Option.some.inj (classified.symm.trans classified')
    exact ⟨member, resource ▸ distinct, resource.symm, mode.symm⟩
  · rintro ⟨member, distinct, resource, mode⟩
    exact ⟨op, classified, acquires, resource.symm, mode.symm, member, resource ▸ distinct⟩

private theorem update_holds_tracks {events : List ProbeEvent} {state : ScanState} (tracks : Tracks events state)
    {event : ProbeEvent} {op : LockOp} (classified : lockOp? event = some op) (threadId : UInt64) :
    Function.update state.heldByThread op.threadId
        (updateHolds (state.heldByThread op.threadId) op) threadId =
      threadHolds threadId (events ++ [event]) := by
  rw [threadHolds_snoc, classified]
  by_cases same : op.threadId = threadId
  · subst threadId
    simp only [Function.update_self, ↓reduceIte, tracks.holds]
  · simp only [Function.update_of_ne (Ne.symm same), if_neg same, tracks.holds]

/-- One event either extends the description or exhibits a new reversed pair. -/
private theorem scanEvent_advanced {events : List ProbeEvent} {state : ScanState}
    (tracks : Tracks events state) (event : ProbeEvent) :
    Advanced events event (scanEvent state event) := by
  cases classified : lockOp? event with
  | none =>
    have inert (edge : OrderEdge) : ¬ AddsEdge events event edge := by
      rintro ⟨op, some, -⟩
      simp only [classified, reduceCtorEq] at some
    simp only [scanEvent, classified]
    refine ⟨⟨fun threadId => ?_, fun edge => ?_⟩, fun _ added _ adds => absurd adds (inert added)⟩
    · rw [tracks.holds, threadHolds_snoc, classified]
    · rw [tracks.edges, nestedAcquire_snoc, or_iff_left (inert edge)]
  | some op =>
    simp only [scanEvent, classified, scanOp]
    cases acquires : op.isAcquire with
    | false =>
      have inert (edge : OrderEdge) : ¬ AddsEdge events event edge := by
        rintro ⟨other, some, acquire, -⟩
        obtain rfl := Option.some.inj (classified.symm.trans some)
        simp only [acquires, Bool.false_eq_true] at acquire
      refine ⟨⟨fun threadId => update_holds_tracks tracks classified threadId, fun edge => ?_⟩,
        fun _ added _ adds => absurd adds (inert added)⟩
      change edge ∈ state.orderEdges ↔ _
      rw [tracks.edges, nestedAcquire_snoc, or_iff_left (inert edge)]
    | true =>
      have recorded := recordEdges_spec op.resource op.mode (state.heldByThread op.threadId) state.orderEdges
      rw [tracks.holds] at recorded
      have fresh := addsEdge_iff_fromHolds events classified acquires
      simp only [↓reduceIte, tracks.holds op.threadId]
      cases result : recordEdges op.resource op.mode (threadHolds op.threadId events) state.orderEdges with
      | error cycle =>
        rw [result] at recorded
        obtain ⟨stored, added, member, adds, pair⟩ := recorded
        exact ⟨stored, added, (tracks.edges stored).mp member, (fresh added).mpr adds, pair⟩
      | ok edges =>
        rw [result] at recorded
        refine ⟨⟨fun threadId => ?_, fun edge => ?_⟩, fun stored added member adds => ?_⟩
        · have update := update_holds_tracks tracks classified threadId
          rwa [tracks.holds] at update
        · change edge ∈ edges ↔ _
          rw [recorded.1, nestedAcquire_snoc, tracks.edges, fresh]
        · exact recorded.2 stored added ((tracks.edges stored).mpr member) ((fresh added).mp adds)

/-- The whole scan: it succeeds with an exact description, or the trace has a reversed pair. -/
theorem scan_exact (events : List ProbeEvent) :
    match events.foldlM scanEvent ScanState.init with
    | .error _ => ReversedPair events
    | .ok state => Tracks events state ∧ ¬ ReversedPair events := by
  induction events using List.reverseRecOn with
  | nil =>
    refine ⟨tracks_init, ?_⟩
    rintro ⟨first, second, left, -⟩
    exact absurd ((tracks_init.edges first).mpr left) List.not_mem_nil
  | append_singleton events event ih =>
    rw [List.foldlM_append]
    cases scanned : events.foldlM scanEvent ScanState.init with
    | error cycle =>
      rw [scanned] at ih
      exact (reversedPair_snoc ..).mpr (.inl ih)
    | ok state =>
      rw [scanned] at ih
      have advanced := scanEvent_advanced ih.1 event
      simp only [List.foldlM_cons, List.foldlM_nil]
      change match (scanEvent state event >>= fun next => pure next) with
        | .error _ => _
        | .ok state => _
      rw [bind_pure]
      cases stepped : scanEvent state event with
      | error cycle =>
        rw [stepped] at advanced
        exact (reversedPair_snoc ..).mpr (.inr advanced)
      | ok next =>
        rw [stepped] at advanced
        refine ⟨advanced.1, fun pair => ?_⟩
        rcases (reversedPair_snoc ..).mp pair with earlier | ⟨stored, added, left, right, reverses⟩
        · exact ih.2 earlier
        · exact advanced.2 stored added left right reverses

theorem isBug_iff_reversedPair (events : List ProbeEvent) (targetName : String) (config : ProbeSessionConfig) :
    (runVerificationFrom events targetName config).verdict.isBug = true ↔ ReversedPair events := by
  have exact' := scan_exact events
  simp only [runVerificationFrom, findLockOrderCycle]
  cases scanned : events.foldlM scanEvent ScanState.init with
  | error cycle =>
    rw [scanned] at exact'
    exact ⟨fun _ => exact', fun _ => rfl⟩
  | ok state =>
    rw [scanned] at exact'
    exact ⟨fun bug => absurd bug (by simp [ReferenceVerdict.isBug]), fun pair => absurd pair exact'.2⟩

/-! ## Schedule independence -/

/-- The edges of one thread's own operation sequence. -/
private def OpsEdge (ops : List LockOp) (edge : OrderEdge) : Prop :=
  ∃ before op after, ops = before ++ op :: after ∧ op.isAcquire = true ∧ op.resource = edge.acquired ∧
    op.mode = edge.acquiredMode ∧ (edge.held, edge.heldMode) ∈ before.foldl updateHolds [] ∧
    edge.held ≠ edge.acquired

/-- Which edges a trace has depends on the per-thread operation sequences only. -/
private theorem nestedAcquire_iff_opsEdge (events : List ProbeEvent) (edge : OrderEdge) :
    NestedAcquire events edge ↔ ∃ threadId, OpsEdge (threadOps threadId events) edge := by
  constructor
  · rintro ⟨before, event, after, op, rfl, classified, facts⟩
    refine ⟨op.threadId, threadOps op.threadId before, op, threadOps op.threadId after, ?_, facts⟩
    simp only [threadOps_append, threadOps_cons, classified, ↓reduceIte]
  · rintro ⟨threadId, before, op, after, split, facts⟩
    obtain ⟨first, rest, rfl, firstOps, restOps⟩ := List.filterMap_eq_append_iff.mp split
    obtain ⟨skipped, event, last, rfl, silent, chosen, -⟩ := List.filterMap_eq_cons_iff.mp restOps
    obtain ⟨classified, owner⟩ := Option.filter_eq_some_iff.mp chosen
    obtain rfl := beq_iff_eq.mp owner
    have same : threadOps op.threadId (first ++ skipped) = before := by
      rw [threadOps_append]
      change threadOps op.threadId first = before at firstOps
      have none : threadOps op.threadId skipped = [] := List.filterMap_eq_nil_iff.mpr silent
      rw [firstOps, none, List.append_nil]
    refine ⟨first ++ skipped, event, last, op, by simp only [List.append_assoc], classified, ?_⟩
    rw [threadHolds, same]
    exact facts

private theorem threadOps_eq_lockEventsOf (threadId : UInt64) (events : List ProbeEvent) :
    threadOps threadId events = (lockEventsOf threadId events).filterMap lockOp? := by
  induction events with
  | nil => rfl
  | cons event rest ih =>
    simp only [lockEventsOf, threadOps_cons] at ih ⊢
    cases classified : lockOp? event with
    | none => simp [classified, ih]
    | some op =>
      by_cases same : op.threadId = threadId
      · simp [classified, same, ih]
      · simp [classified, same, ih]

theorem reversedPair_congr {events events' : List ProbeEvent}
    (same : ∀ threadId, lockEventsOf threadId events' = lockEventsOf threadId events) :
    ReversedPair events' ↔ ReversedPair events := by
  have nested (edge : OrderEdge) : NestedAcquire events' edge ↔ NestedAcquire events edge := by
    simp only [nestedAcquire_iff_opsEdge, threadOps_eq_lockEventsOf, same]
  simp only [ReversedPair, nested]

/-- The verdict is exact for reversed pairs; hence two interleavings of the same thread runs, and a
trace with further non-lock events, get the same verdict. -/
theorem verdict_exact (events : List ProbeEvent) (targetName : String) (config : ProbeSessionConfig) :
    ((runVerificationFrom events targetName config).verdict.isBug = true ↔ ReversedPair events) ∧
    (∀ events', (∀ threadId, lockEventsOf threadId events' = lockEventsOf threadId events) →
      (runVerificationFrom events' targetName config).verdict.isBug =
        (runVerificationFrom events targetName config).verdict.isBug) ∧
    ∀ before inserted after, events = before ++ after → (∀ event ∈ inserted, lockOp? event = none) →
      (runVerificationFrom (before ++ inserted ++ after) targetName config).verdict.isBug =
        (runVerificationFrom events targetName config).verdict.isBug := by
  have schedule (events' : List ProbeEvent)
      (same : ∀ threadId, lockEventsOf threadId events' = lockEventsOf threadId events) :
      (runVerificationFrom events' targetName config).verdict.isBug =
        (runVerificationFrom events targetName config).verdict.isBug := by
    rw [Bool.eq_iff_iff, isBug_iff_reversedPair, isBug_iff_reversedPair, reversedPair_congr same]
  refine ⟨isBug_iff_reversedPair events targetName config, schedule, ?_⟩
  intro before inserted after split silent
  apply schedule
  intro threadId
  have none : lockEventsOf threadId inserted = [] := by
    apply List.filter_eq_nil_iff.mpr
    intro event member
    rw [silent event member]
    exact Bool.false_ne_true
  simp only [lockEventsOf, split, List.filter_append] at none ⊢
  rw [none, List.append_nil]

/-! ## Cycles of every length -/

/-- The acquisitions that no later release has ended; a release ends one of them, if there is one. -/
def unmatched (acquired released : ProbeEvent) (events : List ProbeEvent) : ℕ :=
  events.foldl (fun count event =>
    if event = acquired then count + 1 else if event = released then count - 1 else count) 0

/-- An exclusive acquisition of the thread is unmatched, of a mutex or of a writer. -/
def exclusivelyHeld (threadId : UInt64) (resource : String) (events : List ProbeEvent) : Bool :=
  decide (0 < unmatched (.lockAcquired threadId resource) (.lockReleased threadId resource) events) ||
    decide (0 < unmatched (.rwLockWriteAcquired threadId resource) (.rwLockWriteReleased threadId resource) events)

/-- The thread's last lock event on the resource is an acquisition. -/
def lastAcquires (threadId : UInt64) (resource : String) (events : List ProbeEvent) : Bool :=
  events.foldl (fun acquires event =>
    match lockOp? event with
    | some op => if op.threadId = threadId ∧ op.resource = resource then op.isAcquire else acquires
    | none => acquires) false

/-- Some event of the thread exclusively acquires `acquired`, at a point that satisfies the condition. -/
def AcquiresWhere (condition : List ProbeEvent → Prop) (events : List ProbeEvent) (threadId : UInt64)
    (acquired : String) : Prop :=
  ∃ before event after, events = before ++ event :: after ∧
    (event = .lockAcquired threadId acquired ∨ event = .rwLockWriteAcquired threadId acquired) ∧ condition before

/-- Some event of the thread exclusively acquires `acquired` while it exclusively holds `held`. -/
def AcquiresWhileHolding (events : List ProbeEvent) (threadId : UInt64) (held acquired : String) : Prop :=
  AcquiresWhere (fun before => exclusivelyHeld threadId held before = true) events threadId acquired

/-- As above, and no release has come after the thread's last acquisition of `held`. -/
def AcquiresOnRecord (events : List ProbeEvent) (threadId : UInt64) (held acquired : String) : Prop :=
  AcquiresWhere (fun before => exclusivelyHeld threadId held before = true ∧ lastAcquires threadId held before = true)
    events threadId acquired

/-- A cycle of `n` exclusive acquisitions by `n` threads over `n` resources. -/
structure ExclusiveCycle (events : List ProbeEvent) (n : ℕ) where
  two_le : 2 ≤ n
  threads : Fin n → UInt64
  resources : Fin n → String
  threads_injective : Function.Injective threads
  resources_injective : Function.Injective resources
  closes : ∀ i, AcquiresWhileHolding events (threads i) (resources i) (resources (finRotate n i))

/-- Every hold of the cycle was on record when the next lock was acquired. -/
def ExclusiveCycle.OnRecord {events : List ProbeEvent} {n : ℕ} (cycle : ExclusiveCycle events n) : Prop :=
  ∀ i, AcquiresOnRecord events (cycle.threads i) (cycle.resources i) (cycle.resources (finRotate n i))

private theorem mem_updateHolds_acquire {held : List Hold} {op : LockOp} (acquires : op.isAcquire = true)
    {resource : String} (present : resource = op.resource ∨ ∃ mode, (resource, mode) ∈ held) :
    ∃ mode, (resource, mode) ∈ updateHolds held op := by
  simp only [updateHolds, acquires, ↓reduceIte]
  by_cases known : held.any (·.1 == op.resource) = true
  · rw [if_pos known]
    rcases present with rfl | present
    · obtain ⟨⟨name, mode⟩, member, same⟩ := List.any_eq_true.mp known
      obtain rfl := beq_iff_eq.mp same
      exact ⟨mode, member⟩
    · exact present
  · rw [if_neg known]
    rcases present with rfl | ⟨mode, member⟩
    · exact ⟨op.mode, List.mem_append_right _ (List.mem_singleton_self _)⟩
    · exact ⟨mode, List.mem_append_left _ member⟩

private theorem mem_updateHolds_release {held : List Hold} {op : LockOp} (releases : op.isAcquire = false)
    {resource : String} (other : resource ≠ op.resource) {mode : HoldMode} (member : (resource, mode) ∈ held) :
    (resource, mode) ∈ updateHolds held op := by
  simp only [updateHolds, releases, Bool.false_eq_true, ↓reduceIte, List.mem_filter, bne_iff_ne]
  exact ⟨member, other⟩

/-- What the thread acquired last, and has not released since, is on the scan's hold list. -/
theorem lastAcquires_mem {threadId : UInt64} {resource : String} {events : List ProbeEvent}
    (acquires : lastAcquires threadId resource events = true) :
    ∃ mode, (resource, mode) ∈ threadHolds threadId events := by
  induction events using List.reverseRecOn with
  | nil => exact absurd acquires Bool.false_ne_true
  | append_singleton events event ih =>
    simp only [lastAcquires, List.foldl_append, List.foldl_cons, List.foldl_nil] at acquires ih
    rw [threadHolds_snoc]
    cases classified : lockOp? event with
    | none =>
      simp only [classified] at acquires
      exact ih acquires
    | some op =>
      simp only [classified] at acquires ⊢
      by_cases owner : op.threadId = threadId
      · rw [if_pos owner]
        by_cases same : op.resource = resource
        · rw [if_pos ⟨owner, same⟩] at acquires
          exact mem_updateHolds_acquire acquires (.inl same.symm)
        · rw [if_neg (fun both => same both.2)] at acquires
          obtain ⟨mode, member⟩ := ih acquires
          cases kind : op.isAcquire with
          | true => exact mem_updateHolds_acquire kind (.inr ⟨mode, member⟩)
          | false => exact ⟨mode, mem_updateHolds_release kind (Ne.symm same) member⟩
      · rw [if_neg (fun both => owner both.1)] at acquires
        rw [if_neg owner]
        exact ih acquires

/-- An exclusive nested acquisition is an edge of the scan, if its hold is on record. -/
theorem AcquiresOnRecord.nestedAcquire {events : List ProbeEvent} {threadId : UInt64}
    {held acquired : String} (acquires : AcquiresOnRecord events threadId held acquired)
    (distinct : held ≠ acquired) : ∃ mode, NestedAcquire events ⟨held, mode, acquired, .exclusive⟩ := by
  obtain ⟨before, event, after, rfl, shape, -, last⟩ := acquires
  obtain ⟨mode, member⟩ := lastAcquires_mem last
  have classified : lockOp? event = some ⟨threadId, acquired, .exclusive, true⟩ := by
    rcases shape with rfl | rfl <;> rfl
  exact ⟨mode, before, event, after, _, rfl, classified, rfl, rfl, rfl, member, distinct⟩

private theorem modesConflict_exclusive (mode : HoldMode) : modesConflict .exclusive mode = true := by
  cases mode <;> rfl

/-- Two exclusive acquisitions in opposite orders always conflict, whatever the recorded hold modes. -/
theorem ExclusiveCycle.reversedPair_of_two {events : List ProbeEvent} (cycle : ExclusiveCycle events 2)
    (onRecord : cycle.OnRecord) : ReversedPair events := by
  have distinct : cycle.resources 0 ≠ cycle.resources 1 :=
    fun same => absurd (cycle.resources_injective same) (by decide)
  obtain ⟨mode, first⟩ := (onRecord 0).nestedAcquire distinct
  obtain ⟨mode', second⟩ := (onRecord 1).nestedAcquire distinct.symm
  exact ⟨_, _, first, second, rfl, rfl, modesConflict_exclusive _,
    by rw [modesConflict_comm]; exact modesConflict_exclusive _⟩

/-- The checker reports every cycle of a trace exactly when the cycles through three or more locks, and those that lost
a hold to another release of its lock, come with a reversed pair: other cycles of two locks are never missed. -/
theorem reports_cycles_iff (events : List ProbeEvent) (targetName : String) (config : ProbeSessionConfig) :
    (∀ n, Nonempty (ExclusiveCycle events n) →
      (runVerificationFrom events targetName config).verdict.isBug = true) ↔
    ∀ n, ∀ cycle : ExclusiveCycle events n, 3 ≤ n ∨ ¬ cycle.OnRecord → ReversedPair events := by
  constructor
  · intro reported n cycle _
    exact (isBug_iff_reversedPair events targetName config).mp (reported n ⟨cycle⟩)
  · rintro paired n ⟨cycle⟩
    apply (isBug_iff_reversedPair events targetName config).mpr
    rcases Nat.lt_or_eq_of_le cycle.two_le with long | rfl
    · exact paired n cycle (.inl long)
    · by_cases onRecord : cycle.OnRecord
      · exact cycle.reversedPair_of_two onRecord
      · exact paired 2 cycle (.inr onRecord)

/-- Three threads that take three locks in a ring, one thread after the other. -/
def ringTrace : List ProbeEvent :=
  [.lockAcquired 0 "a", .lockAcquired 0 "b", .lockReleased 0 "b", .lockReleased 0 "a",
    .lockAcquired 1 "b", .lockAcquired 1 "c", .lockReleased 1 "c", .lockReleased 1 "b",
    .lockAcquired 2 "c", .lockAcquired 2 "a", .lockReleased 2 "a", .lockReleased 2 "c"]

private def ringCycle : ExclusiveCycle ringTrace 3 where
  two_le := by decide
  threads := ![0, 1, 2]
  resources := !["a", "b", "c"]
  threads_injective := by decide
  resources_injective := by decide
  closes := by
    intro i
    fin_cases i
    · exact ⟨ringTrace.take 1, _, ringTrace.drop 2, rfl, .inl rfl, by decide⟩
    · exact ⟨ringTrace.take 5, _, ringTrace.drop 6, rfl, .inl rfl, by decide⟩
    · exact ⟨ringTrace.take 9, _, ringTrace.drop 10, rfl, .inl rfl, by decide⟩

/-- The ring of three locks is a cycle, and the verdict on it is clean. -/
theorem ringTrace_missed : Nonempty (ExclusiveCycle ringTrace 3) ∧
    (runVerificationFrom ringTrace "ring" ⟨500, true, "."⟩).verdict = .clean :=
  ⟨⟨ringCycle⟩, by decide⟩

/-- Two threads in opposite orders, one of which holds its first lock twice and has released it once. -/
example : (runVerificationFrom
    [.lockAcquired 0 "a", .lockAcquired 0 "a", .lockReleased 0 "a", .lockAcquired 0 "b", .lockAcquired 1 "b",
      .lockAcquired 1 "a"] "twice" ⟨500, true, "."⟩).verdict = .clean := by decide

end Laplace.Soundness
