import Mathlib.Data.Multiset.Basic

/-! # Queues that remove a maximum

A queue holds a multiset of pending events; a removal takes one that no pending event exceeds, and which one is open
where several are equal. Where the comparison tells the pending events apart there is one choice, so what is removed
depends on the pending events alone, not on the order in which they came or on the layout of the queue.
-/

namespace Laplace.Machine.MaxQueue

variable {Event : Type*} (cmp : Event → Event → Ordering)

/-- The event is pending and no pending one exceeds it. -/
structure IsMaximum (pending : Multiset Event) (event : Event) : Prop where
  mem : event ∈ pending
  greatest : ∀ other ∈ pending, cmp other event ≠ .gt

/-- Events among these that compare equal are the same. -/
def Separates (events : Event → Prop) : Prop :=
  ∀ event other, events event → events other → cmp event other = .eq → event = other

/-- A removal from the pending events, with what it returns and leaves. -/
inductive Removes : Multiset Event → Option Event → Multiset Event → Prop
  | empty : Removes 0 none 0
  | max {event : Event} {rest : Multiset Event} (isMax : IsMaximum cmp (event ::ₘ rest) event) :
      Removes (event ::ₘ rest) (some event) rest

/-- Insertions of such events and removals in any order; the record keeps, for each removal, the pending events and
what was returned. -/
inductive Run (events : Event → Prop) : Multiset Event → List (Multiset Event × Option Event) → Multiset Event → Prop
  | stop (pending : Multiset Event) : Run events pending [] pending
  | insert {pending final : Multiset Event} {record : List (Multiset Event × Option Event)} (event : Event)
      (inserted : events event) (later : Run events (event ::ₘ pending) record final) : Run events pending record final
  | remove {pending rest final : Multiset Event} {record : List (Multiset Event × Option Event)}
      {returned : Option Event}
      (removes : Removes cmp pending returned rest) (later : Run events rest record final) :
      Run events pending ((pending, returned) :: record) final

/-- The events in the order in which repeated removal returns them. -/
inductive Drains : Multiset Event → List Event → Prop
  | empty : Drains 0 []
  | next {event : Event} {rest : Multiset Event} {later : List Event} (isMax : IsMaximum cmp (event ::ₘ rest) event)
      (drains : Drains rest later) : Drains (event ::ₘ rest) (event :: later)

variable {cmp} {events : Event → Prop}

/-! ## One removal -/

theorem Separates.isMaximum_unique [Std.OrientedCmp cmp] (separates : Separates cmp events) {pending : Multiset Event}
    (within : ∀ event ∈ pending, events event) {event other : Event} (isMax : IsMaximum cmp pending event)
    (isMax' : IsMaximum cmp pending other) : event = other := by
  apply separates event other (within event isMax.mem) (within other isMax'.mem)
  have below := isMax'.greatest event isMax.mem
  have above := isMax.greatest other isMax'.mem
  have swapped : cmp other event = (cmp event other).swap := Std.OrientedCmp.eq_swap
  cases compared : cmp event other with
  | lt => exact absurd (swapped.trans (congrArg Ordering.swap compared)) above
  | eq => rfl
  | gt => exact absurd compared below

variable (cmp) in
/-- A pending event that no other exceeds is there whenever any event is. -/
theorem exists_isMaximum [Std.TransCmp cmp] {pending : Multiset Event} (some : pending ≠ 0) :
    ∃ event, IsMaximum cmp pending event := by
  induction pending using Multiset.induction_on with
  | empty => exact absurd rfl some
  | cons event rest ih =>
    have reflexive (event : Event) : cmp event event ≠ .gt := by simp [Std.ReflCmp.compare_self]
    by_cases alone : rest = 0
    · subst alone
      refine ⟨event, Multiset.mem_cons_self _ _, fun other member => ?_⟩
      obtain rfl := Multiset.mem_singleton.mp member
      exact reflexive other
    · obtain ⟨greatest, isMax⟩ := ih alone
      by_cases exceeds : cmp event greatest = .gt
      · refine ⟨event, Multiset.mem_cons_self _ _, fun other member => ?_⟩
        rcases Multiset.mem_cons.mp member with rfl | earlier
        · exact reflexive other
        · have below := Ordering.ne_gt_iff_isLE.mp (isMax.greatest other earlier)
          have above := Std.OrientedCmp.lt_of_gt exceeds
          exact Ordering.ne_gt_iff_isLE.mpr (Std.TransCmp.isLE_trans below (Ordering.isLE_of_eq_lt above))
      · refine ⟨greatest, Multiset.mem_cons_of_mem isMax.mem, fun other member => ?_⟩
        rcases Multiset.mem_cons.mp member with rfl | earlier
        · exact exceeds
        · exact isMax.greatest other earlier

theorem Separates.removes_unique [Std.OrientedCmp cmp] (separates : Separates cmp events)
    {pending rest rest' : Multiset Event} {returned returned' : Option Event} (within : ∀ event ∈ pending, events event)
    (removes : Removes cmp pending returned rest) (removes' : Removes cmp pending returned' rest') :
    returned = returned' := by
  cases removes with
  | empty =>
    generalize none : (0 : Multiset Event) = pending at removes'
    cases removes' with
    | empty => rfl
    | max => exact absurd none.symm (Multiset.cons_ne_zero)
  | @max event _ isMax =>
    generalize same : event ::ₘ rest = pending at removes' isMax within
    cases removes' with
    | empty => exact absurd same Multiset.cons_ne_zero
    | max isMax' => rw [separates.isMaximum_unique within isMax isMax']

/-! ## Runs -/

/-- Each removal of a run is one from the pending events of its record, all of the given kind. -/
theorem Run.removals {pending final : Multiset Event} {record : List (Multiset Event × Option Event)}
    (run : Run cmp events pending record final) (within : ∀ event ∈ pending, events event) :
    ∀ entry ∈ record, (∀ event ∈ entry.1, events event) ∧ ∃ rest, Removes cmp entry.1 entry.2 rest := by
  induction run with
  | stop => simp
  | insert event inserted later ih => exact ih (Multiset.forall_mem_cons.mpr ⟨inserted, within⟩)
  | @remove pending rest final record returned removes later ih =>
    have within' : ∀ event ∈ rest, events event := by
      cases removes with
      | empty => exact within
      | max => exact (Multiset.forall_mem_cons.mp within).2
    exact List.forall_mem_cons.mpr ⟨⟨within, rest, removes⟩, ih within'⟩

/-- Two runs that present the same pending events at each removal return the same events. -/
theorem Separates.run_unique [Std.OrientedCmp cmp] (separates : Separates cmp events)
    {final final' : Multiset Event} {record record' : List (Multiset Event × Option Event)}
    (run : Run cmp events 0 record final) (run' : Run cmp events 0 record' final')
    (same : record.map Prod.fst = record'.map Prod.fst) : record.map Prod.snd = record'.map Prod.snd := by
  have removals := run.removals (by simp)
  have removals' := run'.removals (by simp)
  clear run run'
  induction record generalizing record' with
  | nil =>
    rw [List.map_nil, eq_comm, List.map_eq_nil_iff] at same
    rw [same]
  | cons entry record ih =>
    cases record' with
    | nil => cases same
    | cons entry' record' =>
      obtain ⟨pending, returned⟩ := entry
      obtain ⟨pending', returned'⟩ := entry'
      obtain ⟨rfl, onward⟩ := List.cons.inj same
      have ⟨⟨within, rest, removes⟩, later⟩ := List.forall_mem_cons.mp removals
      have ⟨⟨_, rest', removes'⟩, later'⟩ := List.forall_mem_cons.mp removals'
      have first := separates.removes_unique within removes removes'
      rw [List.map_cons, List.map_cons, ih onward later later']
      exact congrArg (· :: _) first

/-! ## Draining a queue -/

theorem Separates.drains_unique [Std.OrientedCmp cmp] (separates : Separates cmp events) {pending : Multiset Event}
    {order order' : List Event} (within : ∀ event ∈ pending, events event) (drains : Drains cmp pending order)
    (drains' : Drains cmp pending order') : order = order' := by
  induction drains generalizing order' with
  | empty =>
    generalize none : (0 : Multiset Event) = pending at drains'
    cases drains' with
    | empty => rfl
    | next => exact absurd none.symm Multiset.cons_ne_zero
  | @next event rest later isMax drains ih =>
    generalize same : event ::ₘ rest = pending at drains'
    cases drains' with
    | empty => exact absurd same Multiset.cons_ne_zero
    | @next event' rest' later' isMax' drains' =>
      rw [← same] at isMax'
      obtain rfl := separates.isMaximum_unique within isMax isMax'
      obtain rfl := (Multiset.cons_inj_right event).mp same
      rw [ih (Multiset.forall_mem_cons.mp within).2 drains']

variable (cmp) in
/-- Every queue can be drained, in an order of its pending events in which none exceeds an earlier one. -/
theorem exists_drains [Std.TransCmp cmp] (pending : Multiset Event) : ∃ order, Drains cmp pending order := by
  induction size : pending.card generalizing pending with
  | zero =>
    obtain rfl := Multiset.card_eq_zero.mp size
    exact ⟨[], .empty⟩
  | succ size ih =>
    have some : pending ≠ 0 := by
      rintro rfl
      cases size
    obtain ⟨event, isMax⟩ := exists_isMaximum cmp some
    obtain ⟨rest, rfl⟩ := Multiset.exists_cons_of_mem isMax.mem
    rw [Multiset.card_cons] at size
    obtain ⟨order, drains⟩ := ih rest (Nat.succ.inj size)
    exact ⟨event :: order, .next isMax drains⟩

/-- What is drained are the pending events. -/
theorem Drains.coe_eq {pending : Multiset Event} {order : List Event} (drains : Drains cmp pending order) :
    (order : Multiset Event) = pending := by
  induction drains with
  | empty => rfl
  | next isMax drains ih => rw [← Multiset.cons_coe, ih]

/-- No event exceeds one that is drained before it. -/
theorem Drains.sorted {pending : Multiset Event} {order : List Event} (drains : Drains cmp pending order) :
    order.Pairwise fun first second => cmp second first ≠ .gt := by
  induction drains with
  | empty => exact .nil
  | @next event rest later isMax drains ih =>
    apply List.Pairwise.cons ?_ ih
    intro other member
    apply isMax.greatest
    apply Multiset.mem_cons_of_mem
    rw [← drains.coe_eq]
    exact Multiset.mem_coe.mpr member

end Laplace.Machine.MaxQueue
