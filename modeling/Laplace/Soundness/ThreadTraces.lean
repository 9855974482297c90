import Laplace.Soundness.LockOrderThreads

/-! # The lock events of one thread

What a thread holds, and what it acquires while it holds something, is told by its own lock events, whatever other
threads do in between.
-/

namespace Laplace.Soundness

open Model

theorem lockEventsOf_append (threadId : UInt64) (first second : List ProbeEvent) :
    lockEventsOf threadId (first ++ second) = lockEventsOf threadId first ++ lockEventsOf threadId second :=
  List.filter_append ..

theorem holds_snoc (threadId : UInt64) (events : List ProbeEvent) (event : ProbeEvent) (resource : String)
    (recorded : HoldMode) : Holds threadId (events ++ [event]) resource recorded ↔
      lockOp? event = some ⟨threadId, resource, recorded, true⟩ ∨
      (Holds threadId events resource recorded ∧
        ∀ released, lockOp? event ≠ some ⟨threadId, resource, released, false⟩) := by
  constructor
  · rintro ⟨before, acquiring, after, split, classified, kept⟩
    rcases List.eq_nil_or_concat after with rfl | ⟨after, last, rfl⟩
    · obtain ⟨-, same⟩ := List.append_inj' split rfl
      obtain rfl := (List.cons.inj same).1
      exact .inl classified
    · rw [List.concat_eq_append] at kept
      rw [List.concat_eq_append, ← List.cons_append, ← List.append_assoc] at split
      obtain ⟨rfl, same⟩ := List.append_inj' split rfl
      obtain rfl := (List.cons.inj same).1
      refine .inr ⟨⟨before, acquiring, after, rfl, classified, fun later member => ?_⟩, ?_⟩
      · exact kept later (List.mem_append_left _ member)
      · exact kept event (List.mem_append_right _ List.mem_cons_self)
  · rintro (classified | ⟨holds, unreleased⟩)
    · exact ⟨events, event, [], rfl, classified, fun later member => absurd member List.not_mem_nil⟩
    · exact holds.append unreleased

/-- The lock events of a thread tell what it holds. -/
theorem holds_lockEventsOf {id : UInt64} {events : List ProbeEvent} {resource : String} {recorded : HoldMode}
    (holds : Holds id events resource recorded) : Holds id (lockEventsOf id events) resource recorded := by
  obtain ⟨before, acquiring, after, rfl, classified, kept⟩ := holds
  refine ⟨lockEventsOf id before, acquiring, lockEventsOf id after, ?_, classified, fun later member => ?_⟩
  · simp [lockEventsOf, classified]
  · exact kept later (List.mem_of_mem_filter member)

theorem nestedAcquireBy_snoc (threadId : UInt64) (events : List ProbeEvent) (event : ProbeEvent) (edge : OrderEdge) :
    NestedAcquireBy threadId (events ++ [event]) edge ↔ NestedAcquireBy threadId events edge ∨
      (lockOp? event = some ⟨threadId, edge.acquired, edge.acquiredMode, true⟩ ∧
        (edge.held, edge.heldMode) ∈ threadHolds threadId events ∧ edge.held ≠ edge.acquired) := by
  constructor
  · rintro ⟨before, last, later, split, facts⟩
    rcases List.eq_nil_or_concat later with rfl | ⟨inner, final, rfl⟩
    · obtain ⟨rfl, same⟩ := List.append_inj' split rfl
      obtain rfl := (List.cons.inj same).1
      exact .inr facts
    · rw [List.concat_eq_append, ← List.cons_append, ← List.append_assoc] at split
      obtain ⟨rfl, -⟩ := List.append_inj' split rfl
      exact .inl ⟨before, last, inner, rfl, facts⟩
  · rintro (⟨before, last, later, rfl, facts⟩ | facts)
    · exact ⟨before, last, later ++ [event], by simp, facts⟩
    · exact ⟨events, event, [], rfl, facts⟩

theorem NestedAcquireBy.append {threadId : UInt64} {events : List ProbeEvent} {edge : OrderEdge}
    (nested : NestedAcquireBy threadId events edge) (rest : List ProbeEvent) :
    NestedAcquireBy threadId (events ++ rest) edge := by
  obtain ⟨before, event, later, rfl, facts⟩ := nested
  exact ⟨before, event, later ++ rest, by simp, facts⟩

/-- The nested acquisitions of a thread are those of its own lock events. -/
theorem nestedAcquireBy_lockEventsOf (threadId : UInt64) (events : List ProbeEvent) (edge : OrderEdge) :
    NestedAcquireBy threadId (lockEventsOf threadId events) edge ↔ NestedAcquireBy threadId events edge := by
  refine ⟨fun nested => ?_, NestedAcquireBy.alone⟩
  induction events using List.reverseRecOn with
  | nil => exact nested
  | append_singleton events event ih =>
    rw [nestedAcquireBy_snoc]
    rw [lockEventsOf_append] at nested
    by_cases own : (lockOp? event).any (·.threadId == threadId) = true
    · have alone : lockEventsOf threadId [event] = [event] := by simp [lockEventsOf, own]
      rw [alone, nestedAcquireBy_snoc, threadHolds, threadOps_lockEventsOf] at nested
      exact nested.imp_left ih
    · have alone : lockEventsOf threadId [event] = [] := by simp [lockEventsOf, own]
      rw [alone, List.append_nil] at nested
      exact .inl (ih nested)

end Laplace.Soundness
