import Laplace.Machine.MaxQueue
import Laplace.Model.EventQueue
import Mathlib.Data.List.Nodup

/-! # The order of the event queue

The comparison is the lexicographic one of time, Lamport clock and id with its arguments exchanged, so it is total,
and it is equal on events of one key only. Among events with different ids equal keys mean equal events, the maximum
is unique, and what a queue returns depends on its pending events alone.
-/

namespace Laplace.Soundness.EventQueue

open Machine.MaxQueue Model.EventQueue

/-- The lexicographic order of time, Lamport clock and id. -/
def KeyLe (event other : ScheduledEvent) : Prop :=
  event.scheduledAtNs < other.scheduledAtNs ∨ (event.scheduledAtNs = other.scheduledAtNs ∧
    (event.lamport < other.lamport ∨ (event.lamport = other.lamport ∧ event.eventId ≤ other.eventId)))

/-- `SelectNextEvent` -/
def SelectNextEvent (event : ScheduledEvent) (eventQueue : List ScheduledEvent) : Prop :=
  ∀ other ∈ eventQueue, event.scheduledAtNs < other.scheduledAtNs ∨
    (event.scheduledAtNs = other.scheduledAtNs ∧ event.lamport ≤ other.lamport)

/-- On these events the comparison is a strict total order that agrees with `==`. -/
structure StrictTotal (events : List ScheduledEvent) : Prop where
  equal : ∀ event ∈ events, ∀ other ∈ events, event.cmp other = .eq ↔ event.eq other = true
  swap : ∀ event ∈ events, ∀ other ∈ events, other.cmp event = (event.cmp other).swap
  trans : ∀ first ∈ events, ∀ second ∈ events, ∀ third ∈ events,
    first.cmp second = .lt → second.cmp third = .lt → first.cmp third = .lt
  total : ∀ event ∈ events, ∀ other ∈ events, event ≠ other → event.cmp other = .lt ∨ event.cmp other = .gt
  partialCmp : ∀ event ∈ events, ∀ other ∈ events, event.partialCmp other = some (event.cmp other)

/-- The maximum of the events is the one with the least key, is there and meets `SelectNextEvent`. -/
structure MaximumFirst (events : List ScheduledEvent) : Prop where
  some : events ≠ [] → ∃ event, IsMaximum ScheduledEvent.cmp (events : Multiset ScheduledEvent) event
  least : ∀ event ∈ events,
    IsMaximum ScheduledEvent.cmp (events : Multiset ScheduledEvent) event ↔ ∀ other ∈ events, KeyLe event other
  selects : ∀ event,
    IsMaximum ScheduledEvent.cmp (events : Multiset ScheduledEvent) event → SelectNextEvent event events

/-- Repeated removal returns one sequence, the events by their keys, however they were inserted; and removals return
the same events in every interleaving of insertions and removals that presents the same pending events to each. -/
structure InsertionIndependent (events : List ScheduledEvent) : Prop where
  drained : ∃ sequence : List ScheduledEvent, sequence.Perm events ∧ sequence.Pairwise KeyLe ∧
    ∀ order : List ScheduledEvent, order.Perm events → ∀ removed,
      Drains ScheduledEvent.cmp (order : Multiset ScheduledEvent) removed ↔ removed = sequence
  interleaved : ∀ record record' final final', Run ScheduledEvent.cmp (· ∈ events) 0 record final →
    Run ScheduledEvent.cmp (· ∈ events) 0 record' final' → record.map Prod.fst = record'.map Prod.fst →
    record.map Prod.snd = record'.map Prod.snd

/-! ## The comparison -/

/-- Time, then Lamport clock, then id. -/
def key : ScheduledEvent → ScheduledEvent → Ordering :=
  compareLex (compareOn (·.scheduledAtNs)) (compareLex (compareOn (·.lamport)) (compareOn (·.eventId)))

theorem cmp_eq_key (event other : ScheduledEvent) : event.cmp other = key other event := by
  simp only [ScheduledEvent.cmp, key, compareLex, compareOn, Ordering.then]
  cases compare other.scheduledAtNs event.scheduledAtNs <;> cases compare other.lamport event.lamport <;> rfl

instance transCmpKey : Std.TransCmp key := inferInstanceAs (Std.TransCmp (compareLex _ (compareLex _ _)))

instance transCmp : Std.TransCmp ScheduledEvent.cmp := by
  have same : ScheduledEvent.cmp = fun event other => key other event :=
    funext fun event => funext (cmp_eq_key event)
  rw [same]
  infer_instance

theorem cmp_eq_iff (event other : ScheduledEvent) : event.cmp other = .eq ↔
    event.scheduledAtNs = other.scheduledAtNs ∧ event.lamport = other.lamport ∧ event.eventId = other.eventId := by
  rw [Std.OrientedCmp.eq_comm, cmp_eq_key]
  simp only [key, compareLex_eq_eq, compareOn, Std.LawfulEqOrd.compare_eq_iff_eq]

/-- No event exceeds the one with the lesser key. -/
theorem cmp_ne_gt_iff (event other : ScheduledEvent) : other.cmp event ≠ .gt ↔ KeyLe event other := by
  rw [ne_eq, Ordering.ne_gt_iff_isLE, cmp_eq_key]
  simp only [key, compareLex, compareOn, Ordering.isLE_then_iff_or, Std.compare_eq_lt, Std.isLE_compare,
    Std.LawfulEqOrd.compare_eq_iff_eq]
  rfl

theorem selects_of_keyLe {event other : ScheduledEvent} (le : KeyLe event other) :
    event.scheduledAtNs < other.scheduledAtNs ∨
      (event.scheduledAtNs = other.scheduledAtNs ∧ event.lamport ≤ other.lamport) := by
  rcases le with earlier | ⟨same, lower | ⟨equal, _⟩⟩
  · exact .inl earlier
  · exact .inr ⟨same, UInt64.le_of_lt lower⟩
  · exact .inr ⟨same, UInt64.le_of_eq equal⟩

/-! ## Events with different ids -/

variable {events : List ScheduledEvent}

theorem eq_of_eventId (distinct : (events.map (·.eventId)).Nodup) {event other : ScheduledEvent}
    (member : event ∈ events) (member' : other ∈ events) (same : event.eventId = other.eventId) : event = other :=
  List.inj_on_of_nodup_map distinct member member' same

theorem separates_of_distinct (distinct : (events.map (·.eventId)).Nodup) :
    Separates ScheduledEvent.cmp (· ∈ events) := by
  intro event other member member' equal
  exact eq_of_eventId distinct member member' ((cmp_eq_iff event other).mp equal).2.2

theorem strictTotal (distinct : (events.map (·.eventId)).Nodup) : StrictTotal events where
  equal := by
    intro event member other member'
    rw [ScheduledEvent.eq, beq_iff_eq]
    constructor
    · intro equal
      exact ((cmp_eq_iff event other).mp equal).2.2
    · intro same
      obtain rfl := eq_of_eventId distinct member member' same
      exact Std.ReflCmp.compare_self
  swap := fun _ _ _ _ => Std.OrientedCmp.eq_swap
  trans := fun _ _ _ _ _ _ => Std.TransCmp.lt_trans
  total := by
    intro event member other member' ne
    cases compared : event.cmp other with
    | lt => exact .inl rfl
    | eq => exact absurd (separates_of_distinct distinct event other member member' compared) ne
    | gt => exact .inr rfl
  partialCmp := fun _ _ _ _ => rfl

theorem isMaximum_iff {event : ScheduledEvent} (member : event ∈ events) :
    IsMaximum ScheduledEvent.cmp (events : Multiset ScheduledEvent) event ↔ ∀ other ∈ events, KeyLe event other := by
  constructor
  · intro maximum other member'
    exact (cmp_ne_gt_iff event other).mp (maximum.greatest other (Multiset.mem_coe.mpr member'))
  · intro least
    refine ⟨Multiset.mem_coe.mpr member, fun other member' => ?_⟩
    exact (cmp_ne_gt_iff event other).mpr (least other (Multiset.mem_coe.mp member'))

theorem maximumFirst (events : List ScheduledEvent) : MaximumFirst events where
  some := by
    intro nonempty
    apply exists_isMaximum
    exact fun none => nonempty ((Multiset.coe_eq_zero events).mp none)
  least := fun _ => isMaximum_iff
  selects := by
    intro event maximum other member
    exact selects_of_keyLe ((isMaximum_iff (Multiset.mem_coe.mp maximum.mem)).mp maximum other member)

theorem insertionIndependent (distinct : (events.map (·.eventId)).Nodup) : InsertionIndependent events where
  drained := by
    obtain ⟨sequence, drains⟩ := exists_drains ScheduledEvent.cmp (events : Multiset ScheduledEvent)
    refine ⟨sequence, Multiset.coe_eq_coe.mp drains.coe_eq, ?_, ?_⟩
    · apply drains.sorted.imp
      intro first second
      exact (cmp_ne_gt_iff first second).mp
    · intro order perm removed
      rw [Multiset.coe_eq_coe.mpr perm]
      constructor
      · intro drains'
        exact (separates_of_distinct distinct).drains_unique (fun _ => Multiset.mem_coe.mp) drains' drains
      · rintro rfl
        exact drains
  interleaved := fun _ _ _ _ run run' same => (separates_of_distinct distinct).run_unique run run' same

/-- Among events with different ids the order is total, its maximum comes first, and what a queue returns does not
depend on the insertions. -/
theorem queueOrder {events : List ScheduledEvent} (distinct : (events.map (·.eventId)).Nodup) :
    StrictTotal events ∧ MaximumFirst events ∧ InsertionIndependent events :=
  ⟨strictTotal distinct, maximumFirst events, insertionIndependent distinct⟩

/-- Two events at one time and a later one. -/
theorem queueOrder_three :
    let events : List ScheduledEvent := [⟨5, 0, 1, .test 0⟩, ⟨7, 2, 2, .custom "late"⟩, ⟨5, 3, 3, .memoryFence ⟨0⟩⟩]
    StrictTotal events ∧ MaximumFirst events ∧ InsertionIndependent events :=
  queueOrder (by decide)

end Laplace.Soundness.EventQueue
