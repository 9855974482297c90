import Mathlib.Algebra.Order.BigOperators.Group.Finset
import Mathlib.Data.Fintype.Card
import Mathlib.Data.Fintype.EquivFin
import Mathlib.Logic.Relation
import Laplace.Machine.Script

/-! # Processes that wait for each other

Where everybody waits for somebody, somebody waits in a circle. If whoever waits wants a thing that comes before what
another one wants that waits, and nothing comes before itself, then nobody waits. For processes that run scripts this
is progress: every step shortens what is left to be performed, so that a run which never gets stuck comes to its end.
-/

namespace Laplace.Machine

universe u v

section Cycles

variable {Process Thing : Type*}

theorem exists_cycle [Finite Process] [Nonempty Process] {waitsFor : Process → Process → Prop}
    (everybody : ∀ process, ∃ other, waitsFor process other) :
    ∃ process, Relation.TransGen waitsFor process process := by
  by_contra acyclic
  have irreflexive : Std.Irrefl (Relation.TransGen (Function.swap waitsFor)) := by
    refine ⟨fun process around => acyclic ⟨process, ?_⟩⟩
    rwa [← Relation.transGen_swap]
  have founded := Finite.wellFounded_of_trans_of_irrefl (Relation.TransGen (Function.swap waitsFor))
  obtain ⟨last, -, isLast⟩ := founded.has_min Set.univ Set.univ_nonempty
  obtain ⟨other, waits⟩ := everybody last
  exact isLast other trivial (.single waits)

/-- **Nobody waits in an order.** -/
theorem none_waits [Finite Process] {waiting : Process → Prop} {precedes : Thing → Thing → Prop}
    (wanted : Process → Thing) (acyclic : ∀ thing, ¬ Relation.TransGen precedes thing thing)
    (behind : ∀ process, waiting process → ∃ other, waiting other ∧ precedes (wanted process) (wanted other))
    (process : Process) : ¬ waiting process := by
  intro waits
  have : Nonempty {process // waiting process} := ⟨⟨process, waits⟩⟩
  have everybody : ∀ one : {process // waiting process}, ∃ other : {process // waiting process},
      precedes (wanted one) (wanted other) := by
    intro one
    obtain ⟨other, waits, comes⟩ := behind one one.2
    exact ⟨⟨other, waits⟩, comes⟩
  obtain ⟨one, around⟩ := exists_cycle everybody
  exact acyclic (wanted one) (Relation.TransGen.lift (fun one : {process // waiting process} => wanted one)
    (fun _ _ comes => comes) one one around)

/-- A circle of waiting processes is one of what they want. -/
theorem wanted_cycle {waitsFor : Process → Process → Prop} {precedes : Thing → Thing → Prop} (wanted : Process → Thing)
    (behind : ∀ one other third, waitsFor one other → waitsFor other third → precedes (wanted one) (wanted other))
    {process : Process} (around : Relation.TransGen waitsFor process process) :
    Relation.TransGen precedes (wanted process) (wanted process) := by
  have along {one other : Process} (path : Relation.TransGen waitsFor one other) :
      ∀ third, waitsFor other third → Relation.TransGen precedes (wanted one) (wanted other) := by
    induction path with
    | single waits => exact fun third onward => .single (behind _ _ third waits onward)
    | tail path waits ih => exact fun third onward => .tail (ih _ waits) (behind _ _ third waits onward)
  obtain ⟨next, waits, -⟩ := Relation.TransGen.head'_iff.mp around
  exact along around next waits

theorem acyclic_of_rank {precedes : Thing → Thing → Prop} (rank : Thing → ℕ)
    (rises : ∀ one other, precedes one other → rank one < rank other) (thing : Thing) :
    ¬ Relation.TransGen precedes thing thing := by
  intro around
  have higher {one other : Thing} (path : Relation.TransGen precedes one other) : rank one < rank other := by
    induction path with
    | single comes => exact rises _ _ comes
    | tail path comes ih => exact ih.trans (rises _ _ comes)
  exact lt_irrefl _ (higher around)

end Cycles

namespace System

variable {Effect : Type u} {Reply : Effect → Type v} {Process : Type*} {Local : Type v}
  {Operation Choice Shared : Type*}

/-- No process has a program left. -/
def Config.Finished (config : Config Effect Reply Process Local Shared) : Prop :=
  ∀ process, ∃ value, config.program process = .done value

variable [DecidableEq Process]

/-- No process has a step. -/
def Stuck (system : System Effect Reply Process Local Operation Choice Shared)
    (config : Config Effect Reply Process Local Shared) : Prop :=
  ∀ action, system.step config action = none

variable {system : System Effect Reply Process Local Operation Choice Shared}
  {known : Process → (effect : Effect) → Reply effect} {config next : Config Effect Reply Process Local Shared}

/-- An effect that a stuck process performs next is refused. -/
theorem Stuck.refuses (stuck : system.Stuck config) {process : Process} {effect : Effect}
    {rest : Reply effect → Program Effect Reply Local} (running : config.program process = .call effect rest)
    (choice : Choice) : system.answer config.shared process effect choice = none := by
  have refused := stuck (.advance process choice)
  simp only [step, running] at refused
  exact Option.map_eq_none_iff.mp refused

variable [Fintype Process]

/-- The effects that are left to be performed. -/
def remaining (known : Process → (effect : Effect) → Reply effect) (config : Config Effect Reply Process Local Shared) :
    ℕ := ∑ process, ((config.program process).script (known process)).length

theorem remaining_step (scripted : system.Scripted known) {action : Action Process Operation Choice}
    (stepped : system.step config action = some next) : remaining known next < remaining known config := by
  obtain ⟨process, operation, value, program, -, -, started, -⟩ |
    ⟨process, choice, effect, rest, reply, shared, -, running, answered, rfl⟩ := step_cases stepped
  · rw [scripted.starts] at started
    cases started
  · obtain rfl := scripted.replies _ _ _ _ _ _ answered
    have shorter : ((rest (known process effect)).script (known process)).length <
        ((config.program process).script (known process)).length := by
      rw [running, Program.script_call, List.length_cons]
      omega
    refine Finset.sum_lt_sum (fun other _ => ?_) ⟨process, Finset.mem_univ process, ?_⟩
    · rcases eq_or_ne other process with rfl | different
      · simp only [Function.update_self]
        exact shorter.le
      · simp only [Function.update_of_ne different, le_refl]
    · simp only [Function.update_self]
      exact shorter

/-- **Progress of scripts.** If a run that gets stuck has finished, every run can be continued to its end. -/
theorem finishes_of_run (scripted : system.Scripted known) {initial : Config Effect Reply Process Local Shared}
    (ends : ∀ (actions : List (Action Process Operation Choice)) (config : Config Effect Reply Process Local Shared),
      run? system.step initial actions = some config → system.Stuck config → config.Finished)
    {past : List (Action Process Operation Choice)} (reached : run? system.step initial past = some config) :
    ∃ rest final, run? system.step initial (past ++ rest) = some final ∧ final.Finished := by
  obtain ⟨rest, final, onward, stuck⟩ :=
    run?_terminal (remaining known) (fun _ _ _ => remaining_step scripted) config
  have whole : run? system.step initial (past ++ rest) = some final := by
    rw [run?_append, reached]
    exact onward
  exact ⟨rest, final, whole, ends _ _ whole stuck⟩

end System

end Laplace.Machine
