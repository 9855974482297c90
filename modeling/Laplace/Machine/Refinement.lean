import Laplace.Machine.Run

/-! # Two levels of one system

Runs are carried from a system to an abstract one along a function on the states: a step leaves the abstract state as it
is, or is a step of it. They are carried back along a relation, where every abstract step takes a run of the other
system. Neither direction needs the other.
-/

namespace Laplace.Machine

variable {State Action State' Action' : Type*} {step : State → Action → Option State}
  {step' : State' → Action' → Option State'} {initial final : State} {actions : List Action}

/-- **Simulation rule.** -/
theorem run?_simulated (view : State → State') {invariant : State → Prop} (start : invariant initial)
    (keeps : ∀ state action next, invariant state → step state action = some next → invariant next)
    (simulates : ∀ state action next, invariant state → step state action = some next →
      view next = view state ∨ ∃ action', step' (view state) action' = some (view next))
    (reached : run? step initial actions = some final) :
    invariant final ∧ ∃ actions', run? step' (view initial) actions' = some (view final) := by
  refine run?_invariant
    (fun state => invariant state ∧ ∃ actions', run? step' (view initial) actions' = some (view state))
    ⟨start, [], rfl⟩ ?_ reached (fun _ _ => trivial)
  rintro state action next - ⟨holds, actions', before⟩ stepped
  refine ⟨keeps _ _ _ holds stepped, ?_⟩
  rcases simulates _ _ _ holds stepped with same | ⟨action', stepped'⟩
  · exact ⟨actions', by rw [same, before]⟩
  · refine ⟨actions' ++ [action'], ?_⟩
    rw [run?_snoc, before]
    exact stepped'

/-- Some run leads to where this holds. -/
def Leads (step : State → Action → Option State) (post : State → Prop) (state : State) : Prop :=
  ∃ actions final, run? step state actions = some final ∧ post final

section Leads

variable {post middle : State → Prop} {state next : State}

theorem Leads.here (holds : post state) : Leads step post state := ⟨[], state, rfl, holds⟩

theorem Leads.bind (first : Leads step middle state) (onward : ∀ next, middle next → Leads step post next) :
    Leads step post state := by
  obtain ⟨actions, next, reached, holds⟩ := first
  obtain ⟨more, final, reached', holds'⟩ := onward next holds
  refine ⟨actions ++ more, final, ?_, holds'⟩
  rw [run?_append, reached]
  exact reached'

theorem Leads.after {action : Action} (stepped : step state action = some next) (onward : Leads step post next) :
    Leads step post state := by
  obtain ⟨actions, final, reached, holds⟩ := onward
  refine ⟨action :: actions, final, ?_, holds⟩
  rw [run?, stepped]
  exact reached

end Leads

/-- **Realization rule.** -/
theorem run?_realized {relates : State' → State → Prop}
    (realizes : ∀ state' action' next' state, relates state' state → step' state' action' = some next' →
      Leads step (relates next') state)
    {initial' final' : State'} {actions' : List Action'} (start : relates initial' initial)
    (reached : run? step' initial' actions' = some final') : Leads step (relates final') initial := by
  refine run?_invariant (fun state' => Leads step (relates state') initial) (.here start) ?_ reached
    (fun _ _ => trivial)
  intro state' action' next' _ before stepped
  exact before.bind fun state related => realizes _ _ _ state related stepped

end Laplace.Machine
