import Mathlib.Data.List.Induction

/-! # Runs of a partial step function

A system is a partial step function: an action is enabled in a state exactly when it has a
successor. `run?` replays an action tape, so a run is its tape and its endpoint. The rules below
turn facts about one step into facts about every run; nothing here names a program.
-/

namespace Laplace.Machine

variable {State Action : Type*}

/-- Replay a tape of actions; a disabled action has no successor. -/
def run? (step : State → Action → Option State) : State → List Action → Option State
  | state, [] => some state
  | state, action :: rest => (step state action).bind fun next => run? step next rest

variable {step : State → Action → Option State}

@[simp] theorem run?_nil (state : State) : run? step state [] = some state := rfl

theorem run?_append (state : State) (first second : List Action) :
    run? step state (first ++ second) =
      (run? step state first).bind fun middle => run? step middle second := by
  induction first generalizing state with
  | nil => rfl
  | cons action rest ih => simp only [List.cons_append, run?, ih, Option.bind_assoc]

theorem run?_snoc (state : State) (actions : List Action) (action : Action) :
    run? step state (actions ++ [action]) =
      (run? step state actions).bind fun middle => step middle action := by
  simp only [run?_append, run?, Option.bind_fun_some]

/-- A property of the tape and the state reached, established at the start and kept by every step
whose action is admitted, holds after every run of admitted actions. -/
theorem run?_induct {admitted : Action → Prop} {initial : State} (motive : List Action → State → Prop)
    (start : motive [] initial)
    (advance : ∀ past state action next, admitted action → run? step initial past = some state →
      motive past state → step state action = some next → motive (past ++ [action]) next)
    {actions : List Action} {final : State} (reached : run? step initial actions = some final)
    (allowed : ∀ action ∈ actions, admitted action) : motive actions final := by
  induction actions using List.reverseRecOn generalizing final with
  | nil =>
    obtain rfl := Option.some.inj reached
    exact start
  | append_singleton past action ih =>
    rw [run?_snoc] at reached
    obtain ⟨state, before, stepped⟩ := Option.bind_eq_some_iff.mp reached
    have earlier := ih before (fun other member => allowed other (List.mem_append_left _ member))
    exact advance past state action final
      (allowed action (List.mem_append_right _ (List.mem_singleton_self _))) before earlier stepped

/-- An invariant of the initial state that every admitted step keeps holds in every state reached. -/
theorem run?_invariant {admitted : Action → Prop} {initial : State} (invariant : State → Prop)
    (start : invariant initial)
    (advance : ∀ state action next, admitted action → invariant state →
      step state action = some next → invariant next)
    {actions : List Action} {final : State} (reached : run? step initial actions = some final)
    (allowed : ∀ action ∈ actions, admitted action) : invariant final :=
  run?_induct (fun _ state => invariant state) start
    (fun _ state action next ok _ holds stepped => advance state action next ok holds stepped)
    reached allowed

/-- Every action of the tape is admitted in the state in which it is taken. -/
def Along (step : State → Action → Option State) (admitted : State → Action → Prop) :
    State → List Action → Prop
  | _, [] => True
  | state, action :: rest =>
      admitted state action ∧
        match step state action with
        | some next => Along step admitted next rest
        | none => True

instance decidableAlong (admitted : State → Action → Prop) [∀ state action, Decidable (admitted state action)] :
    ∀ state actions, Decidable (Along step admitted state actions)
  | _, [] => inferInstanceAs (Decidable True)
  | state, action :: rest =>
      have : Decidable (match step state action with
          | some next => Along step admitted next rest
          | none => True) :=
        match step state action with
        | some next => decidableAlong admitted next rest
        | none => inferInstanceAs (Decidable True)
      inferInstanceAs (Decidable (_ ∧ _))

theorem along_true (state : State) (actions : List Action) : Along step (fun _ _ => True) state actions := by
  induction actions generalizing state with
  | nil => trivial
  | cons action rest ih =>
    refine ⟨trivial, ?_⟩
    cases step state action with
    | none => trivial
    | some next => exact ih next

theorem Along.and {first second : State → Action → Prop} {state : State} {actions : List Action}
    (one : Along step first state actions) (two : Along step second state actions) :
    Along step (fun state action => first state action ∧ second state action) state actions := by
  induction actions generalizing state with
  | nil => trivial
  | cons action rest ih =>
    refine ⟨⟨one.1, two.1⟩, ?_⟩
    have later := one.2
    have later' := two.2
    cases stepped : step state action with
    | none => trivial
    | some next =>
      rw [stepped] at later later'
      exact ih later later'

theorem Along.take {admitted : State → Action → Prop} {initial : State} {past rest : List Action}
    (admits : Along step admitted initial (past ++ rest)) : Along step admitted initial past := by
  induction past generalizing initial with
  | nil => trivial
  | cons action past ih =>
    refine ⟨admits.1, ?_⟩
    have later := admits.2
    cases stepped : step initial action with
    | none => trivial
    | some next =>
      rw [stepped] at later
      exact ih later

/-- An invariant that every admitted step keeps holds after a run that is admitted along the way. -/
theorem along_invariant {admitted : State → Action → Prop} (invariant : State → Prop)
    (advance : ∀ state action next, admitted state action → invariant state →
      step state action = some next → invariant next)
    {initial final : State} {actions : List Action} (start : invariant initial)
    (reached : run? step initial actions = some final) (allowed : Along step admitted initial actions) :
    invariant final := by
  induction actions generalizing initial with
  | nil =>
    obtain rfl := Option.some.inj reached
    exact start
  | cons action rest ih =>
    obtain ⟨next, stepped, rested⟩ := Option.bind_eq_some_iff.mp reached
    have later := allowed.2
    rw [stepped] at later
    exact ih (advance initial action next allowed.1 start stepped) rested later

/-- A tape is admitted along the way exactly when every action of it is, in the state it is taken in. -/
theorem along_iff {admitted : State → Action → Prop} {initial : State} {actions : List Action} :
    Along step admitted initial actions ↔ ∀ past action rest state, actions = past ++ action :: rest →
      run? step initial past = some state → admitted state action := by
  induction actions generalizing initial with
  | nil =>
    apply iff_of_true trivial
    intro past action rest state split
    exact absurd split.symm (by simp)
  | cons first later ih =>
    constructor
    · rintro ⟨head, tail⟩ past action rest state split reached
      cases past with
      | nil =>
        obtain ⟨rfl, rfl⟩ := List.cons.inj split
        obtain rfl := Option.some.inj reached
        exact head
      | cons first' past =>
        obtain ⟨rfl, rest'⟩ := List.cons.inj split
        obtain ⟨next, stepped, reached⟩ := Option.bind_eq_some_iff.mp reached
        rw [stepped] at tail
        exact ih.mp tail past action rest state rest' reached
    · intro everywhere
      refine ⟨everywhere [] first later initial rfl rfl, ?_⟩
      cases stepped : step initial first with
      | none => trivial
      | some next =>
        apply ih.mpr
        intro past action rest state split reached
        apply everywhere (first :: past) action rest state (by rw [split, List.cons_append])
        rw [run?, stepped]
        exact reached

/-- Two admissions that agree wherever an invariant holds admit the same tapes. -/
theorem along_congr {one two : State → Action → Prop} (invariant : State → Prop)
    (agree : ∀ state action, invariant state → (one state action ↔ two state action))
    (advance : ∀ state action next, one state action → invariant state →
      step state action = some next → invariant next)
    {initial : State} (start : invariant initial) (actions : List Action) :
    Along step one initial actions ↔ Along step two initial actions := by
  induction actions generalizing initial with
  | nil => exact Iff.rfl
  | cons action rest ih =>
    apply and_congr_right_iff.mpr ?_ |>.trans (and_congr_left' (agree initial action start))
    intro admits
    cases stepped : step initial action with
    | none => exact Iff.rfl
    | some next => exact ih (advance initial action next admits start stepped)

/-- Where no step is ever disabled, an admission of actions alone is one of the tape's members. -/
theorem along_forall {admitted : Action → Prop} (total : ∀ state action, (step state action).isSome)
    (initial : State) (actions : List Action) :
    Along step (fun _ action => admitted action) initial actions ↔ ∀ action ∈ actions, admitted action := by
  induction actions generalizing initial with
  | nil => exact iff_of_true trivial (by simp)
  | cons action rest ih =>
    obtain ⟨next, stepped⟩ := Option.isSome_iff_exists.mp (total initial action)
    rw [List.forall_mem_cons, Along, stepped]
    exact and_congr_right' (ih next)

/-- A record that starts empty and grows by at most one entry a step: each of its prefixes was the whole
record at some point of the run. -/
theorem run?_record {Entry : Type*} (record : State → List Entry)
    (grows : ∀ state action next, step state action = some next →
      record next = record state ∨ ∃ entry, record next = record state ++ [entry])
    {initial final : State} {actions : List Action} (empty : record initial = [])
    (reached : run? step initial actions = some final) {part : List Entry}
    (isPart : part <+: record final) :
    ∃ past state, run? step initial past = some state ∧ record state = part := by
  induction actions using List.reverseRecOn generalizing final with
  | nil =>
    obtain rfl := Option.some.inj reached
    rw [empty, List.prefix_nil] at isPart
    exact ⟨[], initial, rfl, by rw [empty, isPart]⟩
  | append_singleton past action ih =>
    have whole := reached
    rw [run?_snoc] at reached
    obtain ⟨state, before, stepped⟩ := Option.bind_eq_some_iff.mp reached
    rcases grows state action final stepped with same | ⟨entry, appended⟩
    · exact ih before (same ▸ isPart)
    · rw [appended, List.prefix_concat_iff] at isPart
      rcases isPart with rfl | earlier
      · exact ⟨past ++ [action], final, whole, appended⟩
      · exact ih before earlier

/-- Every entry of a record stands after a past that it may follow. -/
def Throughout {Entry : Type*} (follows : List Entry → Entry → Prop) (record : List Entry) : Prop :=
  ∀ before entry after, record = before ++ entry :: after → follows before entry

theorem throughout_nil {Entry : Type*} (follows : List Entry → Entry → Prop) : Throughout follows [] := by
  intro before entry after split
  cases before <;> cases split

theorem Throughout.append {Entry : Type*} {follows : List Entry → Entry → Prop} {record : List Entry} {entry : Entry}
    (throughout : Throughout follows record) (last : follows record entry) : Throughout follows (record ++ [entry]) := by
  intro before other after split
  rcases List.eq_nil_or_concat after with rfl | ⟨after, final, rfl⟩
  · obtain ⟨rfl, same⟩ := List.append_inj' split rfl
    obtain rfl := (List.cons.inj same).1
    exact last
  · rw [List.concat_eq_append, ← List.cons_append, ← List.append_assoc] at split
    exact throughout before other after (List.append_inj' split rfl).1

/-- Where every step makes a measure smaller, every state leads to one without a step. -/
theorem run?_terminal (measure : State → ℕ)
    (decreases : ∀ state action next, step state action = some next → measure next < measure state)
    (state : State) : ∃ actions final, run? step state actions = some final ∧ ∀ action, step final action = none := by
  induction size : measure state using Nat.strongRecOn generalizing state with
  | ind size ih =>
    by_cases moves : ∃ action next, step state action = some next
    · obtain ⟨action, next, stepped⟩ := moves
      have smaller := decreases state action next stepped
      obtain ⟨actions, final, reached, ends⟩ := ih (measure next) (size ▸ smaller) next rfl
      refine ⟨action :: actions, final, ?_, ends⟩
      rw [run?, stepped]
      exact reached
    · refine ⟨[], state, rfl, fun action => ?_⟩
      rw [Option.eq_none_iff_forall_ne_some]
      exact fun next stepped => moves ⟨action, next, stepped⟩

end Laplace.Machine
