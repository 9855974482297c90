import Mathlib.Algebra.BigOperators.Group.Finset.Piecewise
import Mathlib.Data.Fintype.Basic
import Laplace.Machine.Run

/-! # Programs of effects, run alone or interleaved

A program is a tree of effects: it stops with a value, or performs one effect and goes on with the
reply. `run` executes it alone against a handler. In a `System` every process runs one program at a
time, and the processes take turns after every single effect; a shared state answers the effects, with
a choice that is left to the schedule.

`Program.Conforms` checks a program against a protocol: which effects a process may perform in which
phase. `System.phases_of_run` then turns an invariant over the shared state and the phases, kept by every
effect that the protocol permits, into a fact about every interleaving of the programs.
-/

namespace Laplace.Machine

universe u v

/-- A program that performs effects and ends with a value. -/
inductive Program (Effect : Type u) (Reply : Effect → Type v) (α : Type v) : Type (max u v) where
  | done (value : α)
  | call (effect : Effect) (next : Reply effect → Program Effect Reply α)

namespace Program

variable {Effect : Type u} {Reply : Effect → Type v} {α β : Type v}

def bind : Program Effect Reply α → (α → Program Effect Reply β) → Program Effect Reply β
  | .done value, rest => rest value
  | .call effect next, rest => .call effect fun reply => (next reply).bind rest

instance : Monad (Program Effect Reply) where
  pure := .done
  bind := .bind

/-- The program of one effect. -/
def perform (effect : Effect) : Program Effect Reply (Reply effect) := .call effect .done

@[simp] theorem pure_eq (value : α) : (pure value : Program Effect Reply α) = .done value := rfl

@[simp] theorem done_bind (value : α) (rest : α → Program Effect Reply β) :
    (Program.done value >>= rest) = rest value := rfl

@[simp] theorem call_bind (effect : Effect) (next : Reply effect → Program Effect Reply α)
    (rest : α → Program Effect Reply β) :
    (Program.call effect next >>= rest) = .call effect fun reply => next reply >>= rest := rfl

@[simp] theorem map_eq (f : α → β) (program : Program Effect Reply α) :
    f <$> program = program >>= fun value => .done (f value) := rfl

theorem bind_bind {γ : Type v} (program : Program Effect Reply α) (first : α → Program Effect Reply β)
    (second : β → Program Effect Reply γ) :
    (program >>= first) >>= second = program >>= fun value => first value >>= second := by
  induction program with
  | done value => rfl
  | call effect next ih => exact congrArg (Program.call effect) (funext ih)

variable {State : Type*}

/-- Run alone. An effect that the handler refuses ends the run without a value. -/
def run (handle : (effect : Effect) → State → Option (Reply effect × State)) :
    Program Effect Reply α → State → Option α × State
  | .done value, state => (some value, state)
  | .call effect next, state =>
      match handle effect state with
      | some (reply, state) => (next reply).run handle state
      | none => (none, state)

/-- What the rest of a program does with the outcome of its first part. -/
def continue? (handle : (effect : Effect) → State → Option (Reply effect × State))
    (rest : α → Program Effect Reply β) : Option α × State → Option β × State
  | (some value, state) => (rest value).run handle state
  | (none, state) => (none, state)

theorem run_bind (handle : (effect : Effect) → State → Option (Reply effect × State))
    (program : Program Effect Reply α) (rest : α → Program Effect Reply β) (state : State) :
    (program >>= rest).run handle state = continue? handle rest (program.run handle state) := by
  induction program generalizing state with
  | done value => rfl
  | call effect next ih =>
    change run handle (.call effect fun reply => next reply >>= rest) state = _
    simp only [run]
    cases handle effect state with
    | none => rfl
    | some answer => exact ih answer.1 answer.2

variable {handle : (effect : Effect) → State → Option (Reply effect × State)}

/-- Run alone from this state, the program ends as `post` says, or is stopped as `stopped` says. -/
def Ensures (handle : (effect : Effect) → State → Option (Reply effect × State)) (post : α → State → Prop)
    (stopped : State → Prop) (program : Program Effect Reply α) (state : State) : Prop :=
  match program.run handle state with
  | (some value, state) => post value state
  | (none, state) => stopped state

variable {post : α → State → Prop} {stopped : State → Prop} {state : State}

/-- An effect that the handler performs. -/
theorem ensures_call {effect : Effect} {next : Reply effect → Program Effect Reply α} {reply : Reply effect} {later : State}
    (handled : handle effect state = some (reply, later)) :
    Ensures handle post stopped (.call effect next) state ↔ Ensures handle post stopped (next reply) later := by
  rw [Ensures, run, handled]
  rfl

/-- An effect that the handler refuses. -/
theorem ensures_refused {effect : Effect} {next : Reply effect → Program Effect Reply α}
    (refused : handle effect state = none) : Ensures handle post stopped (.call effect next) state ↔ stopped state := by
  rw [Ensures, run, refused]

theorem ensures_bind {program : Program Effect Reply β} {rest : β → Program Effect Reply α} :
    Ensures handle post stopped (program >>= rest) state ↔
      Ensures handle (fun value later => Ensures handle post stopped (rest value) later) stopped program state := by
  simp only [Ensures, run_bind]
  rcases program.run handle state with ⟨_ | value, later⟩ <;> rfl

theorem Ensures.mono {post' : α → State → Prop} {program : Program Effect Reply α}
    (ensures : Ensures handle post stopped program state) (weaker : ∀ value later, post value later → post' value later) :
    Ensures handle post' stopped program state := by
  revert ensures
  simp only [Ensures]
  rcases program.run handle state with ⟨_ | value, later⟩
  · exact id
  · exact weaker value later

/-- A first part that leads to `middle` and a second part that goes on from there. -/
theorem Ensures.bind {middle : β → State → Prop} {program : Program Effect Reply β}
    {rest : β → Program Effect Reply α} (first : Ensures handle middle stopped program state)
    (onward : ∀ value later, middle value later → Ensures handle post stopped (rest value) later) :
    Ensures handle post stopped (program >>= rest) state :=
  ensures_bind.mpr (first.mono onward)

end Program

/-- A protocol for the effects of one process: the phases it moves through, the effects it permits in a
phase, and the replies that can occur. -/
structure Protocol (Effect : Type u) (Reply : Effect → Type v) (Phase : Type*) where
  permits : Phase → Effect → Prop := fun _ _ => True
  possible : (effect : Effect) → Reply effect → Prop
  after : Phase → (effect : Effect) → Reply effect → Option Phase

/-- What a protocol says about the effects of the smaller kind. -/
def Protocol.left {Effect Extra : Type u} {Reply : Effect → Type v} {ExtraReply : Extra → Type v} {Phase : Type*}
    (protocol : Protocol (Effect ⊕ Extra) (Sum.elim Reply ExtraReply) Phase) : Protocol Effect Reply Phase where
  permits phase effect := protocol.permits phase (.inl effect)
  possible effect reply := protocol.possible (.inl effect) reply
  after phase effect reply := protocol.after phase (.inl effect) reply

namespace Program

variable {Effect : Type u} {Reply : Effect → Type v} {α β : Type v} {Phase : Type*}

/-- From this phase the program performs only effects that the protocol permits, whatever the possible
replies, and stops in a phase that suits its value. -/
def Conforms (protocol : Protocol Effect Reply Phase) (rest : Phase → α → Prop) :
    Phase → Program Effect Reply α → Prop
  | phase, .done value => rest phase value
  | phase, .call effect next =>
      protocol.permits phase effect ∧ ∀ reply, protocol.possible effect reply →
        ∃ later, protocol.after phase effect reply = some later ∧
          Conforms protocol rest later (next reply)

variable {protocol : Protocol Effect Reply Phase} {rest : Phase → α → Prop} {phase : Phase}

@[simp] theorem conforms_done {value : α} : Conforms protocol rest phase (.done value) ↔ rest phase value :=
  Iff.rfl

/-- A program that starts with an effect. -/
theorem conforms_perform_bind {effect : Effect} {second : Reply effect → Program Effect Reply α} :
    Conforms protocol rest phase (perform effect >>= second) ↔
      protocol.permits phase effect ∧ ∀ reply, protocol.possible effect reply →
        ∃ later, protocol.after phase effect reply = some later ∧
          Conforms protocol rest later (second reply) := Iff.rfl

/-- A program of one effect. -/
theorem conforms_perform {effect : Effect} {rest : Phase → Reply effect → Prop} :
    Conforms protocol rest phase (perform effect) ↔
      protocol.permits phase effect ∧ ∀ reply, protocol.possible effect reply →
        ∃ later, protocol.after phase effect reply = some later ∧ rest later reply := Iff.rfl

theorem Conforms.mono {rest' : Phase → α → Prop} {program : Program Effect Reply α}
    (conforms : Conforms protocol rest phase program)
    (weaker : ∀ later value, rest later value → rest' later value) :
    Conforms protocol rest' phase program := by
  induction program generalizing phase with
  | done value => exact weaker phase value conforms
  | call effect next ih =>
    refine ⟨conforms.1, fun reply isPossible => ?_⟩
    obtain ⟨later, moved, onward⟩ := conforms.2 reply isPossible
    exact ⟨later, moved, ih reply onward⟩

/-- A first part that reaches `middle` and a second part that goes on from there. -/
theorem Conforms.bind {middle : Phase → β → Prop} {program : Program Effect Reply β}
    {second : β → Program Effect Reply α} (first : Conforms protocol middle phase program)
    (onward : ∀ later value, middle later value → Conforms protocol rest later (second value)) :
    Conforms protocol rest phase (program >>= second) := by
  induction program generalizing phase with
  | done value => exact onward phase value first
  | call effect next ih =>
    refine ⟨first.1, fun reply isPossible => ?_⟩
    obtain ⟨later, moved, conforms⟩ := first.2 reply isPossible
    exact ⟨later, moved, ih reply conforms⟩

/-- From a phase that permits and absorbs everything, every program conforms. -/
theorem conforms_absorbed (permitted : ∀ effect, protocol.permits phase effect)
    (absorbed : ∀ effect reply, protocol.after phase effect reply = some phase) (resting : ∀ value, rest phase value)
    (program : Program Effect Reply α) : Conforms protocol rest phase program := by
  induction program with
  | done value => exact resting value
  | call effect next ih => exact ⟨permitted effect, fun reply _ => ⟨phase, absorbed effect reply, ih reply⟩⟩

section Extra

variable {Extra : Type u} {ExtraReply : Extra → Type v}

/-- A program among others that know more effects. -/
def inject : Program Effect Reply α → Program (Effect ⊕ Extra) (Sum.elim Reply ExtraReply) α
  | .done value => .done value
  | .call effect next => .call (.inl effect) fun reply => (next reply).inject

theorem conforms_inject {protocol : Protocol (Effect ⊕ Extra) (Sum.elim Reply ExtraReply) Phase}
    {program : Program Effect Reply α} :
    Conforms protocol rest phase (program.inject) ↔ Conforms protocol.left rest phase program := by
  induction program generalizing phase with
  | done value => exact Iff.rfl
  | call effect next ih =>
    refine and_congr Iff.rfl (forall_congr' fun reply => forall_congr' fun _ => exists_congr fun later => ?_)
    exact and_congr Iff.rfl (ih reply)

end Extra

end Program

/-- Processes that run programs against a shared state. `start` gives the program of an operation on a
process that stands idle with a local value; `answer` performs one effect of a process. -/
structure System (Effect : Type u) (Reply : Effect → Type v) (Process : Type*) (Local : Type v)
    (Operation Choice Shared : Type*) where
  start : Process → Local → Operation → Option (Program Effect Reply Local)
  answer : Shared → Process → (effect : Effect) → Choice → Option (Reply effect × Shared)

namespace System

variable {Effect : Type u} {Reply : Effect → Type v} {Process : Type*} {Local : Type v}
  {Operation Choice Shared : Type*}

/-- A process is idle when its program is done. -/
structure Config (Effect : Type u) (Reply : Effect → Type v) (Process : Type*) (Local : Type v)
    (Shared : Type*) where
  shared : Shared
  program : Process → Program Effect Reply Local

inductive Action (Process Operation Choice : Type*) where
  | start (process : Process) (operation : Operation)
  | advance (process : Process) (choice : Choice)
deriving DecidableEq

variable [DecidableEq Process]

def step (system : System Effect Reply Process Local Operation Choice Shared)
    (config : Config Effect Reply Process Local Shared) :
    Action Process Operation Choice → Option (Config Effect Reply Process Local Shared)
  | .start process operation =>
      match config.program process with
      | .done value =>
          (system.start process value operation).map fun program =>
            { config with program := Function.update config.program process program }
      | .call _ _ => none
  | .advance process choice =>
      match config.program process with
      | .done _ => none
      | .call effect next =>
          (system.answer config.shared process effect choice).map fun (reply, shared) =>
            { shared := shared, program := Function.update config.program process (next reply) }

variable {system : System Effect Reply Process Local Operation Choice Shared}
  {config next : Config Effect Reply Process Local Shared}

/-- A step starts an operation of an idle process or performs one effect of a running one. -/
theorem step_cases {action : Action Process Operation Choice} (stepped : system.step config action = some next) :
    (∃ process operation value program, action = .start process operation ∧
      config.program process = .done value ∧ system.start process value operation = some program ∧
      next = { config with program := Function.update config.program process program }) ∨
    (∃ process choice effect rest reply shared, action = .advance process choice ∧
      config.program process = .call effect rest ∧
      system.answer config.shared process effect choice = some (reply, shared) ∧
      next = { shared := shared, program := Function.update config.program process (rest reply) }) := by
  cases action with
  | start process operation =>
    simp only [step] at stepped
    cases running : config.program process with
    | call effect rest =>
      rw [running] at stepped
      cases stepped
    | done value =>
      rw [running] at stepped
      obtain ⟨program, started, rfl⟩ := Option.map_eq_some_iff.mp stepped
      exact .inl ⟨process, operation, value, program, rfl, running, started, rfl⟩
  | advance process choice =>
    simp only [step] at stepped
    cases running : config.program process with
    | done value =>
      rw [running] at stepped
      cases stepped
    | call effect rest =>
      rw [running] at stepped
      obtain ⟨⟨reply, shared⟩, answered, rfl⟩ := Option.map_eq_some_iff.mp stepped
      exact .inr ⟨process, choice, effect, rest, reply, shared, rfl, running, answered, rfl⟩

section Phases

variable {Phase : Type*} {protocol : Protocol Effect Reply Phase} {rest : Phase → Local → Prop}

/-- Every process stands in a phase from which its program conforms, and the invariant holds of the
shared state and these phases. -/
def Phased (protocol : Protocol Effect Reply Phase) (rest : Phase → Local → Prop)
    (invariant : Shared → (Process → Phase) → Prop)
    (config : Config Effect Reply Process Local Shared) (phases : Process → Phase) : Prop :=
  invariant config.shared phases ∧ ∀ process, (config.program process).Conforms protocol rest (phases process)

/-- Every operation conforms from the phases that suit an idle process. -/
def Starts (system : System Effect Reply Process Local Operation Choice Shared)
    (protocol : Protocol Effect Reply Phase) (rest : Phase → Local → Prop) : Prop :=
  ∀ process value operation program phase, system.start process value operation = some program →
    rest phase value → program.Conforms protocol rest phase

/-- Every effect that the protocol permits has a possible reply and keeps the invariant. -/
def Keeps (system : System Effect Reply Process Local Operation Choice Shared)
    (protocol : Protocol Effect Reply Phase) (invariant : Shared → (Process → Phase) → Prop) : Prop :=
  ∀ shared phases process effect choice reply next, invariant shared phases →
    system.answer shared process effect choice = some (reply, next) →
      protocol.possible effect reply ∧ ∀ later, protocol.permits (phases process) effect →
        protocol.after (phases process) effect reply = some later →
          invariant next (Function.update phases process later)

variable {invariant : Shared → (Process → Phase) → Prop}

section Admitted

variable {admitted : Config Effect Reply Process Local Shared → Action Process Operation Choice → Prop}

/-- Every operation that is admitted conforms from where its process stands. -/
def StartsWhen (system : System Effect Reply Process Local Operation Choice Shared)
    (admitted : Config Effect Reply Process Local Shared → Action Process Operation Choice → Prop)
    (protocol : Protocol Effect Reply Phase) (rest : Phase → Local → Prop)
    (invariant : Shared → (Process → Phase) → Prop) : Prop :=
  ∀ config phases process operation value program, Phased protocol rest invariant config phases →
    admitted config (.start process operation) → config.program process = .done value →
      system.start process value operation = some program → program.Conforms protocol rest (phases process)

/-- Every effect that is admitted and permitted has a possible reply and keeps the invariant. -/
def KeepsWhen (system : System Effect Reply Process Local Operation Choice Shared)
    (admitted : Config Effect Reply Process Local Shared → Action Process Operation Choice → Prop)
    (protocol : Protocol Effect Reply Phase) (rest : Phase → Local → Prop)
    (invariant : Shared → (Process → Phase) → Prop) : Prop :=
  ∀ config phases process effect next choice reply shared, Phased protocol rest invariant config phases →
    admitted config (.advance process choice) → config.program process = .call effect next →
      system.answer config.shared process effect choice = some (reply, shared) →
        protocol.possible effect reply ∧ ∀ later, protocol.permits (phases process) effect →
          protocol.after (phases process) effect reply = some later →
            invariant shared (Function.update phases process later)

/-- Every operation that is admitted conforms from a phase that its process may take up. -/
def Enters (system : System Effect Reply Process Local Operation Choice Shared)
    (admitted : Config Effect Reply Process Local Shared → Action Process Operation Choice → Prop)
    (protocol : Protocol Effect Reply Phase) (rest : Phase → Local → Prop)
    (invariant : Shared → (Process → Phase) → Prop) : Prop :=
  ∀ config phases process operation value program, Phased protocol rest invariant config phases →
    admitted config (.start process operation) → config.program process = .done value →
      system.start process value operation = some program →
        ∃ later, invariant config.shared (Function.update phases process later) ∧
          program.Conforms protocol rest later

theorem StartsWhen.enters (starts : system.StartsWhen admitted protocol rest invariant) :
    system.Enters admitted protocol rest invariant := by
  intro config phases process operation value program holds allowed idle started
  refine ⟨phases process, ?_, starts config phases process operation value program holds allowed idle started⟩
  rw [Function.update_eq_self]
  exact holds.1

/-- One admitted step moves at most one process, into a phase that it takes up or along its protocol. -/
theorem phases_of_entered_step (enters : system.Enters admitted protocol rest invariant)
    (keeps : system.KeepsWhen admitted protocol rest invariant) {phases : Process → Phase}
    {action : Action Process Operation Choice} (holds : Phased protocol rest invariant config phases)
    (allowed : admitted config action) (stepped : system.step config action = some next) :
    ∃ phases, Phased protocol rest invariant next phases := by
  have conform := holds.2
  obtain ⟨process, operation, value, program, rfl, idle, started, rfl⟩ |
    ⟨process, choice, effect, rest', reply, shared, rfl, running, answered, rfl⟩ := step_cases stepped
  · obtain ⟨later, kept, conforms⟩ := enters _ _ _ _ _ _ holds allowed idle started
    refine ⟨Function.update phases process later, kept, fun other => ?_⟩
    rcases eq_or_ne other process with rfl | different
    · simpa only [Function.update_self] using conforms
    · simpa only [Function.update_of_ne different] using conform other
  · obtain ⟨isPossible, kept⟩ := keeps _ _ _ _ _ _ _ _ holds allowed running answered
    have conforming := conform process
    rw [running] at conforming
    obtain ⟨later, moved, conforms⟩ := conforming.2 reply isPossible
    refine ⟨Function.update phases process later, kept later conforming.1 moved, fun other => ?_⟩
    rcases eq_or_ne other process with rfl | different
    · simpa only [Function.update_self] using conforms
    · simpa only [Function.update_of_ne different] using conform other

/-- **Invariant rule for runs whose processes take up phases.** A process may take up another phase when it
starts an operation, as far as the invariant allows. -/
theorem phases_of_entered_run (enters : system.Enters admitted protocol rest invariant)
    (keeps : system.KeepsWhen admitted protocol rest invariant)
    {initial final : Config Effect Reply Process Local Shared} {phases : Process → Phase}
    {actions : List (Action Process Operation Choice)} (start : Phased protocol rest invariant initial phases)
    (reached : run? system.step initial actions = some final) (allowed : Along system.step admitted initial actions) :
    ∃ phases, Phased protocol rest invariant final phases :=
  along_invariant (fun config => ∃ phases, Phased protocol rest invariant config phases)
    (fun _ _ _ ok holds stepped => phases_of_entered_step enters keeps holds.choose_spec ok stepped)
    ⟨phases, start⟩ reached allowed

/-- **Invariant rule for admitted runs.** Operations and effects need to respect the phases only where the
step is admitted. -/
theorem phases_of_admitted_run (starts : system.StartsWhen admitted protocol rest invariant)
    (keeps : system.KeepsWhen admitted protocol rest invariant)
    {initial final : Config Effect Reply Process Local Shared} {phases : Process → Phase}
    {actions : List (Action Process Operation Choice)} (start : Phased protocol rest invariant initial phases)
    (reached : run? system.step initial actions = some final) (allowed : Along system.step admitted initial actions) :
    ∃ phases, Phased protocol rest invariant final phases :=
  phases_of_entered_run starts.enters keeps start reached allowed

omit [DecidableEq Process] in
theorem Starts.always (starts : system.Starts protocol rest) :
    system.StartsWhen admitted protocol rest invariant := by
  intro config phases process operation value program holds _ idle started
  have conforming := holds.2 process
  rw [idle] at conforming
  exact starts _ _ _ _ _ started conforming

theorem Keeps.always (keeps : system.Keeps protocol invariant) :
    system.KeepsWhen admitted protocol rest invariant :=
  fun _ _ _ _ _ _ _ _ holds _ _ answered => keeps _ _ _ _ _ _ _ holds.1 answered

end Admitted

/-- **Invariant rule.** An invariant over the shared state and the phases that every permitted effect
keeps holds, with phases that every program conforms to, after every run. -/
theorem phases_of_run (starts : system.Starts protocol rest) (keeps : system.Keeps protocol invariant)
    {initial final : Config Effect Reply Process Local Shared} {phases : Process → Phase}
    {actions : List (Action Process Operation Choice)} (start : Phased protocol rest invariant initial phases)
    (reached : run? system.step initial actions = some final) :
    ∃ phases, Phased protocol rest invariant final phases :=
  phases_of_admitted_run starts.always keeps.always start reached (along_true initial actions)

end Phases

end System

/-- Moving one process from its phase to another changes a total over the processes by its own part. -/
theorem total_update {Process Phase : Type*} [Fintype Process] [DecidableEq Process] (weight : Phase → ℕ)
    (phases : Process → Phase) (process : Process) (later : Phase) :
    ∑ other, weight (Function.update phases process later other) + weight (phases process) =
      ∑ other, weight (phases other) + weight later := by
  have moved : (fun other => weight (Function.update phases process later other)) =
      Function.update (fun other => weight (phases other)) process (weight later) :=
    funext fun other => Function.apply_update (fun _ => weight) phases process later other
  have split := Finset.sum_update_of_mem (Finset.mem_univ process)
    (fun other => weight (phases other)) (weight later)
  have whole := Finset.add_sum_erase Finset.univ (fun other => weight (phases other))
    (Finset.mem_univ process)
  rw [Finset.sdiff_singleton_eq_erase] at split
  rw [moved, split, ← whole]
  omega

end Laplace.Machine
