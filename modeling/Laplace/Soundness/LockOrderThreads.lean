import Laplace.Soundness.LockOrder

/-! # Whose acquisitions a reported cycle is made of

An order edge does not say which thread it comes from, so that the two acquisitions of a reported pair may belong
to one thread. They do so only where that thread takes the two locks in both orders by itself, and then its own
events are reported without those of any other thread.
-/

namespace Laplace.Soundness

open Model

/-- The thread has acquired the resource in this mode and has not released it since. -/
def Holds (threadId : UInt64) (events : List ProbeEvent) (resource : String) (mode : HoldMode) : Prop :=
  ∃ before event after, events = before ++ event :: after ∧ lockOp? event = some ⟨threadId, resource, mode, true⟩ ∧
    ∀ later ∈ after, ∀ released, lockOp? later ≠ some ⟨threadId, resource, released, false⟩

/-- The thread acquires `edge.acquired` while it holds `edge.held`. -/
def AcquiresHolding (threadId : UInt64) (events : List ProbeEvent) (edge : OrderEdge) : Prop :=
  ∃ before event after, events = before ++ event :: after ∧
    lockOp? event = some ⟨threadId, edge.acquired, edge.acquiredMode, true⟩ ∧
    Holds threadId before edge.held edge.heldMode ∧ edge.held ≠ edge.acquired

/-- An acquiring event of the thread takes `edge.acquired` while its hold list has `edge.held`. -/
def NestedAcquireBy (threadId : UInt64) (events : List ProbeEvent) (edge : OrderEdge) : Prop :=
  ∃ before event after, events = before ++ event :: after ∧
    lockOp? event = some ⟨threadId, edge.acquired, edge.acquiredMode, true⟩ ∧
    (edge.held, edge.heldMode) ∈ threadHolds threadId before ∧ edge.held ≠ edge.acquired

theorem nestedAcquire_iff_by (events : List ProbeEvent) (edge : OrderEdge) :
    NestedAcquire events edge ↔ ∃ threadId, NestedAcquireBy threadId events edge := by
  constructor
  · rintro ⟨before, event, after, op, split, classified, acquires, resource, mode, member, distinct⟩
    obtain ⟨threadId, acquired, acquiredMode, isAcquire⟩ := op
    obtain rfl : isAcquire = true := acquires
    obtain rfl : acquired = edge.acquired := resource
    obtain rfl : acquiredMode = edge.acquiredMode := mode
    exact ⟨threadId, before, event, after, split, classified, member, distinct⟩
  · rintro ⟨threadId, before, event, after, split, classified, member, distinct⟩
    exact ⟨before, event, after, _, split, classified, rfl, rfl, rfl, member, distinct⟩

/-! ## Hold lists and holds -/

theorem Holds.append {threadId : UInt64} {events : List ProbeEvent} {resource : String} {mode : HoldMode}
    {event : ProbeEvent} (holds : Holds threadId events resource mode)
    (unreleased : ∀ released, lockOp? event ≠ some ⟨threadId, resource, released, false⟩) :
    Holds threadId (events ++ [event]) resource mode := by
  obtain ⟨before, acquiring, after, rfl, classified, kept⟩ := holds
  refine ⟨before, acquiring, after ++ [event], by simp, classified, ?_⟩
  intro later member
  rcases List.mem_append.mp member with member | member
  · exact kept later member
  · obtain rfl := List.mem_singleton.mp member
    exact unreleased

/-- What is on the hold list of a thread is held by it, in that mode. -/
theorem holds_of_mem {threadId : UInt64} {events : List ProbeEvent} {resource : String} {mode : HoldMode}
    (member : (resource, mode) ∈ threadHolds threadId events) : Holds threadId events resource mode := by
  induction events using List.reverseRecOn with
  | nil => exact absurd member List.not_mem_nil
  | append_singleton events event ih =>
    rw [threadHolds_snoc] at member
    cases classified : lockOp? event with
    | none =>
      rw [classified] at member
      apply (ih member).append
      simp [classified]
    | some op =>
      simp only [classified] at member
      by_cases owner : op.threadId = threadId
      · rw [if_pos owner, updateHolds] at member
        obtain ⟨thread, acquired, acquiredMode, isAcquire⟩ := op
        obtain rfl : thread = threadId := owner
        cases isAcquire with
        | false =>
          simp only [Bool.false_eq_true, ↓reduceIte, List.mem_filter, bne_iff_ne] at member
          apply (ih member.1).append
          intro released same
          rw [classified] at same
          cases same
          exact member.2 rfl
        | true =>
          have acquires : ∀ released, lockOp? event ≠ some ⟨thread, resource, released, false⟩ := by
            simp [classified]
          simp only [↓reduceIte] at member
          split at member
          · exact (ih member).append acquires
          · rcases List.mem_append.mp member with member | member
            · exact (ih member).append acquires
            · cases List.mem_singleton.mp member
              exact ⟨events, event, [], rfl, classified, fun later absent => absurd absent List.not_mem_nil⟩
      · rw [if_neg owner] at member
        apply (ih member).append
        intro released same
        rw [classified] at same
        cases same
        exact owner rfl

theorem NestedAcquireBy.holding {threadId : UInt64} {events : List ProbeEvent} {edge : OrderEdge}
    (nested : NestedAcquireBy threadId events edge) : AcquiresHolding threadId events edge := by
  obtain ⟨before, event, after, split, classified, member, distinct⟩ := nested
  exact ⟨before, event, after, split, classified, holds_of_mem member, distinct⟩

/-! ## One thread alone -/

theorem threadOps_lockEventsOf (threadId : UInt64) (events : List ProbeEvent) :
    threadOps threadId (lockEventsOf threadId events) = threadOps threadId events := by
  induction events with
  | nil => rfl
  | cons event rest ih =>
    rw [threadOps_cons, ← ih]
    cases classified : lockOp? event with
    | none => simp [lockEventsOf, classified]
    | some op =>
      by_cases owner : op.threadId = threadId
      · simp [lockEventsOf, classified, owner, threadOps_cons]
      · simp [lockEventsOf, classified, owner]

/-- A nested acquisition of a thread is there among its events alone. -/
theorem NestedAcquireBy.alone {threadId : UInt64} {events : List ProbeEvent} {edge : OrderEdge}
    (nested : NestedAcquireBy threadId events edge) : NestedAcquireBy threadId (lockEventsOf threadId events) edge := by
  obtain ⟨before, event, after, rfl, classified, member, distinct⟩ := nested
  refine ⟨lockEventsOf threadId before, event, lockEventsOf threadId after, ?_, classified, ?_, distinct⟩
  · simp [lockEventsOf, classified]
  · rwa [threadHolds, threadOps_lockEventsOf]

/-- **A bug takes two threads, or one that reverses itself.** A reported bug comes from two acquire events, one
taking `b` while its thread holds `a` and the other taking `a` while its thread holds `b`, in modes that conflict
in both directions. Their threads are two, unless one thread takes the two locks in both orders: then its events
alone are reported. -/
theorem bug_from_two_threads (events : List ProbeEvent) (targetName : String) (config : ProbeSessionConfig)
    (bug : (runVerificationFrom events targetName config).verdict.isBug = true) :
    ∃ one other first second, AcquiresHolding one events first ∧ AcquiresHolding other events second ∧
      Reverses first second ∧
      (one = other → (runVerificationFrom (lockEventsOf one events) targetName config).verdict.isBug = true) := by
  obtain ⟨first, second, left, right, pair⟩ := (isBug_iff_reversedPair events targetName config).mp bug
  obtain ⟨one, left⟩ := (nestedAcquire_iff_by events first).mp left
  obtain ⟨other, right⟩ := (nestedAcquire_iff_by events second).mp right
  refine ⟨one, other, first, second, left.holding, right.holding, pair, ?_⟩
  rintro rfl
  apply (isBug_iff_reversedPair _ _ _).mpr
  refine ⟨first, second, ?_, ?_, pair⟩
  · exact (nestedAcquire_iff_by _ _).mpr ⟨one, left.alone⟩
  · exact (nestedAcquire_iff_by _ _).mpr ⟨one, right.alone⟩

/-- Two threads that take two locks in opposite orders. -/
def oppositeTrace : List ProbeEvent :=
  [.lockAcquired 0 "a", .lockAcquired 0 "b", .lockAcquired 1 "b", .lockAcquired 1 "a"]

theorem bug_from_two_threads_opposite : ∃ one other first second, AcquiresHolding one oppositeTrace first ∧
    AcquiresHolding other oppositeTrace second ∧ Reverses first second ∧
    (one = other → (runVerificationFrom (lockEventsOf one oppositeTrace) "ab_ba" ⟨500, true, "."⟩).verdict.isBug = true) :=
  bug_from_two_threads oppositeTrace "ab_ba" ⟨500, true, "."⟩ (by decide)

/-- One thread that takes `b` inside `a`, lets go of `a`, and takes it again inside `b`. -/
def handOverTrace : List ProbeEvent :=
  [.lockAcquired 0 "a", .lockAcquired 0 "b", .lockReleased 0 "a", .lockAcquired 0 "a", .lockReleased 0 "a",
    .lockReleased 0 "b"]

theorem eq_zero_of_handOver {threadId : UInt64} {edge : OrderEdge}
    (acquires : AcquiresHolding threadId handOverTrace edge) : threadId = 0 := by
  obtain ⟨before, event, after, split, classified, -⟩ := acquires
  have member : event ∈ handOverTrace := by
    rw [split]
    exact List.mem_append_right _ List.mem_cons_self
  simp only [handOverTrace, List.mem_cons, List.not_mem_nil, or_false] at member
  have owner := congrArg (Option.map LockOp.threadId) classified
  rcases member with rfl | rfl | rfl | rfl | rfl | rfl <;> exact (Option.some.inj owner).symm

/-- A single thread is reported, and no second one is anywhere in the trace. -/
theorem single_thread_reported :
    (runVerificationFrom handOverTrace "hand_over" ⟨500, true, "."⟩).verdict.isBug = true ∧
    ¬ ∃ one other first second, one ≠ other ∧ AcquiresHolding one handOverTrace first ∧
      AcquiresHolding other handOverTrace second ∧ Reverses first second := by
  refine ⟨by decide, ?_⟩
  rintro ⟨one, other, first, second, distinct, left, right, -⟩
  exact distinct ((eq_zero_of_handOver left).trans (eq_zero_of_handOver right).symm)

end Laplace.Soundness
