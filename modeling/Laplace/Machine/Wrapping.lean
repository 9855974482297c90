import Laplace.Machine.Program

/-! # Programs that wrap others

A wrapper performs the effects of the program it wraps, in their order, and effects of its own in between. Some replies
to its own effects may end it: from then on it never returns, whatever it still performs. `Wraps` relates the two
programs as trees, and `Wraps.run` turns this into a fact about their runs: the wrapper returns what the other returns
and leaves the shared part of its state as the other leaves it, unless it was ended.
-/

namespace Laplace.Machine

universe u v

variable {Effect Shared : Type u} {Reply : Effect → Type v} {α β γ δ : Type v}

namespace Program

/-- The program never returns, whatever the replies. -/
def Stops : Program Effect Reply α → Prop
  | .done _ => False
  | .call _ next => ∀ reply, (next reply).Stops

theorem stops_bind {program : Program Effect Reply α} {rest : α → Program Effect Reply β}
    (stops : ∀ value, (rest value).Stops) : (program >>= rest).Stops := by
  induction program with
  | done value => exact stops value
  | call effect next ih => exact ih

theorem Stops.bind {program : Program Effect Reply α} (stops : program.Stops) (rest : α → Program Effect Reply β) :
    (program >>= rest).Stops := by
  induction program with
  | done value => exact stops.elim
  | call effect next ih => exact fun reply => ih reply (stops reply)

theorem bind_done (program : Program Effect Reply α) : program >>= .done = program := by
  induction program with
  | done value => rfl
  | call effect next ih => exact congrArg (Program.call effect) (funext ih)

end Program

/-- What a wrapper performs: the effects of the program it wraps, and its own, some replies to which let it go on. -/
structure Wrapping (Effect Shared : Type u) (Reply : Effect → Type v) where
  share : Shared → Effect
  own : Effect → Prop
  serves : (effect : Effect) → Reply effect → Prop

namespace Wrapping

/-- What the wrapped program performs. -/
abbrev Wrapped (wrapping : Wrapping Effect Shared Reply) (β : Type v) :=
  Program Shared (fun call => Reply (wrapping.share call)) β

/-- The program wraps the other one, with related values at the end. -/
inductive Wraps (wrapping : Wrapping Effect Shared Reply) (related : α → β → Prop) :
    Program Effect Reply α → wrapping.Wrapped β → Prop
  | done {value : α} {value' : β} (ends : related value value') : Wraps wrapping related (.done value) (.done value')
  | own {effect : Effect} {next : Reply effect → Program Effect Reply α} {wrapped : wrapping.Wrapped β}
      (isOwn : wrapping.own effect)
      (onward : ∀ reply, wrapping.serves effect reply → Wraps wrapping related (next reply) wrapped)
      (stops : ∀ reply, ¬ wrapping.serves effect reply → (next reply).Stops) :
      Wraps wrapping related (.call effect next) wrapped
  | shared {call : Shared} {next : Reply (wrapping.share call) → Program Effect Reply α}
      {next' : Reply (wrapping.share call) → wrapping.Wrapped β}
      (onward : ∀ reply, Wraps wrapping related (next reply) (next' reply)) :
      Wraps wrapping related (.call (wrapping.share call) next) (.call call next')

/-- The program performs only effects of its own. -/
def Silent (wrapping : Wrapping Effect Shared Reply) (post : α → Prop) (program : Program Effect Reply α) : Prop :=
  wrapping.Wraps (fun value (_ : PUnit) => post value) program (.done ⟨⟩)

variable {wrapping : Wrapping Effect Shared Reply} {related : α → β → Prop} {related' : γ → δ → Prop}
  {program : Program Effect Reply α} {wrapped : wrapping.Wrapped β}

theorem Wraps.mono {weaker : α → β → Prop} (wraps : wrapping.Wraps related program wrapped)
    (implies : ∀ value value', related value value' → weaker value value') : wrapping.Wraps weaker program wrapped := by
  induction wraps with
  | done ends => exact .done (implies _ _ ends)
  | own isOwn _ stops ih => exact .own isOwn ih stops
  | shared _ ih => exact .shared ih

theorem Wraps.bind {rest : α → Program Effect Reply γ} {rest' : β → wrapping.Wrapped δ}
    (first : wrapping.Wraps related program wrapped)
    (onward : ∀ value value', related value value' → wrapping.Wraps related' (rest value) (rest' value')) :
    wrapping.Wraps related' (program >>= rest) (wrapped >>= rest') := by
  induction first with
  | done ends => exact onward _ _ ends
  | own isOwn _ stops ih => exact .own isOwn ih fun reply ended => (stops reply ended).bind rest
  | shared _ ih => exact .shared ih

/-- What the wrapper does of its own before. -/
theorem Silent.bind {post : γ → Prop} {first : Program Effect Reply γ} {rest : γ → Program Effect Reply α}
    (silent : wrapping.Silent post first)
    (onward : ∀ value, post value → wrapping.Wraps related (rest value) wrapped) :
    wrapping.Wraps related (first >>= rest) wrapped := by
  change wrapping.Wraps related (first >>= rest) ((.done ⟨⟩ : wrapping.Wrapped PUnit) >>= fun _ => wrapped)
  exact Wraps.bind silent fun value _ holds => onward value holds

/-- A program that performs only effects of its own wraps a program that has returned. -/
theorem Silent.wraps {post : α → Prop} (silent : wrapping.Silent post program) {value' : β}
    (ends : ∀ value, post value → related value value') : wrapping.Wraps related program (.done value') := by
  rw [← Program.bind_done program]
  exact silent.bind fun value holds => .done (ends value holds)

/-- What the wrapper does of its own afterwards. -/
theorem Wraps.after {rest : α → Program Effect Reply γ} {later : γ → β → Prop}
    (first : wrapping.Wraps related program wrapped)
    (silent : ∀ value value', related value value' → wrapping.Silent (later · value') (rest value)) :
    wrapping.Wraps later (program >>= rest) wrapped := by
  rw [← Program.bind_done wrapped]
  refine first.bind fun value value' ends => ?_
  exact (silent value value' ends).wraps fun _ => id

/-- The call itself. -/
theorem wraps_shared (call : Shared) :
    wrapping.Wraps Eq (Program.perform (wrapping.share call)) (Program.perform call) :=
  .shared fun _ => .done rfl

/-- An effect of its own that never ends it. -/
theorem silent_perform {effect : Effect} (isOwn : wrapping.own effect)
    (serves : ∀ reply, wrapping.serves effect reply) :
    wrapping.Silent (fun _ => True) (Program.perform effect : Program Effect Reply _) :=
  .own isOwn (fun _ _ => .done trivial) fun reply ended => absurd (serves reply) ended

/-! ## Runs -/

variable {State Inner : Type*}

/-- The effects of the wrapper's own leave the shared part of the state alone and end the wrapper only where the state
is spent, which it stays; the shared effects do there what the wrapped program's do. -/
structure Implements (wrapping : Wrapping Effect Shared Reply)
    (handle : (effect : Effect) → State → Option (Reply effect × State))
    (handle' : (call : Shared) → Inner → Option (Reply (wrapping.share call) × Inner))
    (inner : State → Inner) (Spent : State → Prop) : Prop where
  own : ∀ effect state, wrapping.own effect → ∃ reply later, handle effect state = some (reply, later) ∧
    inner later = inner state ∧ (wrapping.serves effect reply ∨ Spent later)
  shared : ∀ call state,
    (handle (wrapping.share call) state).map (fun answer => (answer.1, inner answer.2)) = handle' call (inner state)
  spent : ∀ effect state reply later, Spent state → handle effect state = some (reply, later) → Spent later

/-- The wrapper returned what the other did or was refused as the other was, or it was ended. -/
inductive Agree (related : α → β → Prop) (inner : State → Inner) (Spent : State → Prop) :
    Option α × State → Option β × Inner → Prop
  | returned {value : α} {value' : β} {later : State} (ends : related value value') :
      Agree related inner Spent (some value, later) (some value', inner later)
  | refused {later : State} : Agree related inner Spent (none, later) (none, inner later)
  | ended {later : State} {other : Option β × Inner} (spent : Spent later) :
      Agree related inner Spent (none, later) other

variable {handle : (effect : Effect) → State → Option (Reply effect × State)}
  {handle' : (call : Shared) → Inner → Option (Reply (wrapping.share call) × Inner)}
  {inner : State → Inner} {Spent : State → Prop}

theorem Implements.stops (implements : Implements wrapping handle handle' inner Spent) (stops : program.Stops)
    {state : State} (spent : Spent state) : ∃ later, program.run handle state = (none, later) ∧ Spent later := by
  induction program generalizing state with
  | done value => exact stops.elim
  | call effect next ih =>
    rw [Program.run]
    cases answered : handle effect state with
    | none => exact ⟨state, rfl, spent⟩
    | some answer => exact ih answer.1 (stops answer.1) (implements.spent _ _ _ _ spent answered)

/-- A wrapper runs as the program it wraps, unless it is ended. -/
theorem Wraps.run (implements : Implements wrapping handle handle' inner Spent)
    (wraps : wrapping.Wraps related program wrapped) (state : State) :
    Agree related inner Spent (program.run handle state) (wrapped.run handle' (inner state)) := by
  induction wraps generalizing state with
  | done ends => exact .returned ends
  | @own effect next wrapped isOwn onward stops ih =>
    obtain ⟨reply, later, answered, same, goesOn⟩ := implements.own effect state isOwn
    rw [Program.run, answered, ← same]
    by_cases serves : wrapping.serves effect reply
    · exact ih reply serves later
    · obtain ⟨final, ran, spent⟩ := implements.stops (stops reply serves) (goesOn.resolve_left serves)
      change Agree related inner Spent ((next reply).run handle later) _
      rw [ran]
      exact .ended spent
  | @shared call next next' onward ih =>
    have answer := implements.shared call state
    rw [Program.run, Program.run, ← answer]
    cases answered : handle (wrapping.share call) state with
    | none => exact .refused
    | some answer => exact ih answer.1 answer.2

end Wrapping

end Laplace.Machine
