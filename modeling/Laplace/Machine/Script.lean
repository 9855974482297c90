import Laplace.Machine.Program

/-! # Processes that run scripts

Where every reply is known beforehand, a program performs a fixed list of effects, its script. A run of such
processes interleaves their scripts: what each process has performed, and what is left of its program, is its script.
`System.scripts_of_run` turns an invariant over the shared state and what the processes performed, kept by every effect
that comes next in a script, into a fact about every interleaving.
-/

namespace Laplace.Machine

universe u v

variable {Effect : Type u} {Reply : Effect → Type v} {α β : Type v}

namespace Program

/-- The effects that a program performs when it is given these replies. -/
def script (known : (effect : Effect) → Reply effect) : Program Effect Reply α → List Effect
  | .done _ => []
  | .call effect next => effect :: (next (known effect)).script known

/-- The value that it ends with. -/
def result (known : (effect : Effect) → Reply effect) : Program Effect Reply α → α
  | .done value => value
  | .call effect next => (next (known effect)).result known

variable {known : (effect : Effect) → Reply effect}

@[simp] theorem script_done (value : α) : (.done value : Program Effect Reply α).script known = [] := rfl

@[simp] theorem script_call (effect : Effect) (next : Reply effect → Program Effect Reply α) :
    (Program.call effect next).script known = effect :: (next (known effect)).script known := rfl

@[simp] theorem script_perform (effect : Effect) :
    (perform effect : Program Effect Reply _).script known = [effect] := rfl

@[simp] theorem result_done (value : α) : (.done value : Program Effect Reply α).result known = value := rfl

@[simp] theorem result_call (effect : Effect) (next : Reply effect → Program Effect Reply α) :
    (Program.call effect next).result known = (next (known effect)).result known := rfl

theorem script_bind (program : Program Effect Reply α) (rest : α → Program Effect Reply β) :
    (program >>= rest).script known = program.script known ++ (rest (program.result known)).script known := by
  induction program with
  | done value => rfl
  | call effect next ih =>
    simp only [call_bind, script_call, result_call, List.cons_append]
    rw [ih]

theorem result_bind (program : Program Effect Reply α) (rest : α → Program Effect Reply β) :
    (program >>= rest).result known = (rest (program.result known)).result known := by
  induction program with
  | done value => rfl
  | call effect next ih => exact ih _

end Program

namespace System

variable {Process : Type*} {Local : Type v} {Operation Choice Shared : Type*}

/-- The processes run the programs they have, and every reply is the known one. -/
structure Scripted (system : System Effect Reply Process Local Operation Choice Shared)
    (known : Process → (effect : Effect) → Reply effect) : Prop where
  starts : ∀ process value operation, system.start process value operation = none
  replies : ∀ shared process effect choice reply later,
    system.answer shared process effect choice = some (reply, later) → reply = known process effect

/-- What each process has performed is its script up to what is left of its program. -/
def Performed (known : Process → (effect : Effect) → Reply effect)
    (initial config : Config Effect Reply Process Local Shared) (history : Process → List Effect) : Prop :=
  ∀ process, history process ++ (config.program process).script (known process) =
    (initial.program process).script (known process)

variable {known : Process → (effect : Effect) → Reply effect}
  {initial config final : Config Effect Reply Process Local Shared} {history : Process → List Effect}

/-- A process that is done has performed its script. -/
theorem Performed.of_done (performed : Performed known initial config history) {process : Process} {value : Local}
    (finished : config.program process = .done value) :
    history process = (initial.program process).script (known process) := by
  rw [← performed process, finished, Program.script_done, List.append_nil]

theorem Performed.isPrefix (performed : Performed known initial config history) (process : Process) :
    history process <+: (initial.program process).script (known process) := ⟨_, performed process⟩

variable [DecidableEq Process] {system : System Effect Reply Process Local Operation Choice Shared}

/-- One step performs the next effect of one script. -/
theorem script_step (scripted : system.Scripted known) {next : Config Effect Reply Process Local Shared}
    {action : Action Process Operation Choice} (performed : Performed known initial config history)
    (stepped : system.step config action = some next) :
    ∃ process effect choice reply, system.answer config.shared process effect choice = some (reply, next.shared) ∧
      history process ++ [effect] <+: (initial.program process).script (known process) ∧
      Performed known initial next (Function.update history process (history process ++ [effect])) := by
  obtain ⟨process, operation, value, program, -, -, started, -⟩ |
    ⟨process, choice, effect, rest, reply, shared, -, running, answered, rfl⟩ := step_cases stepped
  · rw [scripted.starts] at started
    cases started
  · obtain rfl := scripted.replies _ _ _ _ _ _ answered
    have whole : history process ++ [effect] ++ (rest (known process effect)).script (known process) =
        (initial.program process).script (known process) := by
      rw [← performed process, running, Program.script_call, List.append_assoc, List.singleton_append]
    refine ⟨process, effect, choice, _, answered, ⟨_, whole⟩, fun other => ?_⟩
    rcases eq_or_ne other process with rfl | different
    · simp only [Function.update_self]
      exact whole
    · simp only [Function.update_of_ne different]
      exact performed other

/-- **Invariant rule for scripts.** -/
theorem scripts_of_run (scripted : system.Scripted known) {invariant : Shared → (Process → List Effect) → Prop}
    (start : invariant initial.shared fun _ => [])
    (keeps : ∀ shared history process effect choice reply later, invariant shared history →
      (∀ other, history other <+: (initial.program other).script (known other)) →
      history process ++ [effect] <+: (initial.program process).script (known process) →
      system.answer shared process effect choice = some (reply, later) →
      invariant later (Function.update history process (history process ++ [effect])))
    {actions : List (Action Process Operation Choice)} (reached : run? system.step initial actions = some final) :
    ∃ history, invariant final.shared history ∧ Performed known initial final history := by
  refine run?_invariant (fun config => ∃ history, invariant config.shared history ∧
    Performed known initial config history) ⟨fun _ => [], start, fun _ => rfl⟩ ?_ reached (fun _ _ => trivial)
  rintro config action next - ⟨history, holds, performed⟩ stepped
  obtain ⟨process, effect, choice, reply, answered, next', performed'⟩ := script_step scripted performed stepped
  exact ⟨_, keeps _ _ _ _ _ _ _ holds performed.isPrefix next' answered, performed'⟩

end System

end Laplace.Machine
