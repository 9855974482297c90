import Laplace.Model.Tasks

/-! # The spawn modes are interchangeable

What a handle answers depends on the life of its task alone, in whichever mode the task was spawned. The observed
mode swallows a panic on its way to tokio and raises it again from a flag; both it and the engine mode take the
output from a slot, which a task that ended well has filled.
-/

namespace Laplace.Soundness.Spawning

open Laplace.Machine Laplace.Model.Tasks
open Laplace.Model.Runtime (Poll PollResult)

variable {T Out Wrapper : Type}

/-- What the handle of a task with this life answers. -/
def answerOf : Life T → Poll (Except TaskJoinError T)
  | .running _ => .pending
  | .ended result => .ready (result.mapError .ofJoinError)

/-- The answers of a handle, by the life of the task alone: `Ok` with the value of the future that returned it, an
error for the one that panicked, and another for the one whose abort took effect. -/
def expected : Life T → List (Action T) → List (Option (Poll (Except TaskJoinError T)))
  | _, [] => []
  | .running aborting, .join :: rest => some .pending :: expected (.running aborting) rest
  | .ended result, .join :: _ => [some (answerOf (.ended result))]
  | life, .poll future :: rest => if life.isRunning then expected (life.polled future) rest else []
  | life, .abort :: rest => expected life.abort rest
  | life, .cancel :: rest =>
      match life.cancel with
      | some life => expected life rest
      | none => []

/-- A mode in which a spawned task keeps up with the life of its future. -/
structure Simulates (mode : Mode T Out Wrapper) (sim : Spawned T Out Wrapper → Life T → Prop) : Prop where
  running : ∀ spawned life, sim spawned life → spawned.world.life.isRunning = life.isRunning
  poll : ∀ spawned aborting future, sim spawned (.running aborting) →
    (mode.poll spawned.wrapper).Ensures (World.handle future)
      (fun result world => sim { spawned with
        world := { world with life := world.life.polled result.1 }, wrapper := result.2 }
        ((Life.running aborting).polled future)) (fun _ => False) spawned.world
  abort : ∀ spawned life, sim spawned life →
    sim { spawned with world := { spawned.world with life := spawned.world.life.abort } } life.abort
  cancel : ∀ spawned, sim spawned (.running true) → spawned.world.life.cancel = some (.ended (.error .cancelled)) ∧
    sim { spawned with world := { spawned.world with life := .ended (.error .cancelled) } } (.ended (.error .cancelled))
  uncancelled : ∀ spawned life, sim spawned life → life.cancel = none → spawned.world.life.cancel = none
  pending : ∀ spawned aborting, sim spawned (.running aborting) →
    (mode.join spawned.handle).Ensures (World.handle .pending)
      (fun result world => result.1 = .pending ∧ sim { spawned with world, handle := result.2 } (.running aborting))
      (fun _ => False) spawned.world
  ready : ∀ spawned result, sim spawned (.ended result) →
    (mode.join spawned.handle).Ensures (World.handle .pending)
      (fun answer _ => answer.1 = answerOf (.ended result)) (fun _ => False) spawned.world

/-- Steps of the executor and of `abort` do not ask the handle. -/
theorem joins_step {mode : Mode T Out Wrapper} {spawned : Spawned T Out Wrapper} {action : Action T}
    (isStep : action ≠ .join) (rest : List (Action T)) :
    spawned.joins mode (action :: rest) = ((spawned.step mode action).map fun next => next.joins mode rest).getD [] := by
  cases action with
  | join => exact absurd rfl isStep
  | poll future | abort | cancel =>
    simp only [Spawned.joins]
    cases spawned.step mode _ <;> rfl

/-- A mode that keeps up answers as expected. -/
theorem Simulates.joins_eq {mode : Mode T Out Wrapper} {sim : Spawned T Out Wrapper → Life T → Prop}
    (simulates : Simulates mode sim) {spawned : Spawned T Out Wrapper} {life : Life T} (kept : sim spawned life)
    (actions : List (Action T)) : spawned.joins mode actions = expected life actions := by
  induction actions generalizing spawned life with
  | nil => cases life <;> rfl
  | cons action rest ih =>
    cases action with
    | join =>
      rw [Spawned.joins]
      cases life with
      | running aborting =>
        have ensured := simulates.pending spawned aborting kept
        revert ensured
        rw [Program.Ensures]
        rcases (mode.join spawned.handle).run (World.handle .pending) spawned.world with ⟨_ | ⟨answer, handle⟩, world⟩
        · exact False.elim
        · rintro ⟨isPending, kept'⟩
          obtain rfl : answer = .pending := isPending
          rw [expected]
          exact congrArg _ (ih kept')
      | ended result =>
        have ensured := simulates.ready spawned result kept
        revert ensured
        rw [Program.Ensures]
        rcases (mode.join spawned.handle).run (World.handle .pending) spawned.world with ⟨_ | ⟨answer, handle⟩, world⟩
        · exact False.elim
        · intro isReady
          obtain rfl : answer = answerOf (.ended result) := isReady
          rfl
    | poll future =>
      cases life with
      | running aborting =>
        have ensured := simulates.poll spawned aborting future kept
        have isRunning := simulates.running spawned _ kept
        rw [joins_step (by simp), Spawned.step, isRunning]
        revert ensured
        rw [Program.Ensures]
        rcases (mode.poll spawned.wrapper).run (World.handle future) spawned.world with ⟨_ | ⟨polled, wrapper⟩, world⟩
        · exact False.elim
        · exact fun kept' => ih kept'
      | ended result =>
        have isEnded := simulates.running spawned _ kept
        rw [joins_step (by simp), Spawned.step, isEnded]
        rfl
    | abort =>
      have kept' := simulates.abort spawned life kept
      cases life <;> exact ih kept'
    | cancel =>
      cases cancelled : life.cancel with
      | none =>
        have uncancelled := simulates.uncancelled spawned life kept cancelled
        rw [joins_step (by simp), Spawned.step, uncancelled]
        cases life <;> simp only [expected, cancelled] <;> rfl
      | some later =>
        obtain rfl : life = .running true := by
          cases life with
          | ended result => cases cancelled
          | running aborting =>
            cases aborting with
            | true => rfl
            | false => cases cancelled
        obtain ⟨isCancelled, kept'⟩ := simulates.cancel spawned kept
        rw [joins_step (by simp), Spawned.step, isCancelled]
        exact ih kept'

section Native

/-- Tokio knows the life of the future itself. -/
def NativeSim (spawned : Spawned T T Unit) (life : Life T) : Prop := spawned.world.life = life

theorem native_simulates : Simulates (native : Mode T T Unit) NativeSim where
  running spawned life kept := congrArg Life.isRunning kept
  poll spawned aborting future kept := by
    obtain ⟨⟨life, output, panicked, completed, trace⟩, wrapper, handle⟩ := spawned
    obtain rfl : life = .running aborting := kept
    rfl
  abort spawned life kept := congrArg Life.abort kept
  cancel spawned kept := ⟨congrArg Life.cancel kept, rfl⟩
  uncancelled spawned life kept uncancelled := (congrArg Life.cancel kept).trans uncancelled
  pending spawned aborting kept := by
    obtain ⟨⟨life, output, panicked, completed, trace⟩, wrapper, handle⟩ := spawned
    obtain rfl : life = .running aborting := kept
    exact ⟨rfl, rfl⟩
  ready spawned result kept := by
    obtain ⟨⟨life, output, panicked, completed, trace⟩, wrapper, ⟨requested, resolved⟩⟩ := spawned
    obtain rfl : life = .ended result := kept
    cases resolved <;> rfl

end Native

section Slot

/-- What the executor, the slot and the flag show of a life, in the modes where the output travels in the slot.
`panics` is what the executor shows after a panic. -/
def Carries (panics : Except JoinError Unit) (world : World T Unit) : Life T → Prop
  | .running aborting => world.life = .running aborting ∧ world.panicked = false
  | .ended (.ok value) => world.life = .ended (.ok ()) ∧ world.panicked = false ∧ world.output = some value
  | .ended (.error .panic) => world.life = .ended panics ∧ (panics = .ok () → world.panicked = true)
  | .ended (.error .cancelled) => world.life = .ended (.error .cancelled)

variable {panics : Except JoinError Unit} {world : World T Unit} {life : Life T}

theorem Carries.running (carries : Carries panics world life) : world.life.isRunning = life.isRunning := by
  cases life with
  | running aborting =>
    rw [carries.1]
    rfl
  | ended result =>
    rcases result with (_ | _) | value
    · rw [show world.life = _ from carries]
      rfl
    · rw [carries.1]
      rfl
    · rw [carries.1]
      rfl

theorem Carries.abort (carries : Carries panics world life) :
    Carries panics { world with life := world.life.abort } life.abort := by
  cases life with
  | running aborting => exact ⟨by rw [carries.1]; rfl, carries.2⟩
  | ended result =>
    rcases result with (_ | _) | value
    · exact (congrArg Life.abort carries : _)
    · exact ⟨by rw [carries.1]; rfl, carries.2⟩
    · exact ⟨by rw [carries.1]; rfl, carries.2⟩

theorem Carries.cancel (carries : Carries panics world (.running true)) :
    world.life.cancel = some (.ended (.error .cancelled)) ∧
      Carries panics { world with life := .ended (.error .cancelled) } (.ended (.error .cancelled)) := by
  rw [carries.1]
  exact ⟨rfl, rfl⟩

theorem Carries.uncancelled (carries : Carries panics world life) (uncancelled : life.cancel = none) :
    world.life.cancel = none := by
  cases life with
  | running aborting =>
    rw [carries.1]
    cases aborting with
    | true => cases uncancelled
    | false => rfl
  | ended result =>
    rcases result with (_ | _) | value
    · rw [show world.life = _ from carries]
      rfl
    · rw [carries.1]
      rfl
    · rw [carries.1]
      rfl

end Slot

section Engine

/-- The engine shows a panic as such. -/
def EngineSim (spawned : Spawned T Unit Unit) (life : Life T) : Prop :=
  Carries (.error .panic) spawned.world life

theorem engine_simulates : Simulates (engine : Mode T Unit Unit) EngineSim where
  running _ _ kept := kept.running
  poll spawned aborting future kept := by
    obtain ⟨⟨life, output, panicked, completed, trace⟩, wrapper, handle⟩ := spawned
    obtain ⟨rfl, rfl⟩ : life = .running aborting ∧ panicked = false := kept
    cases future with
    | pending => exact ⟨rfl, rfl⟩
    | ready value => exact ⟨rfl, rfl, rfl⟩
    | panicked => exact ⟨rfl, nofun⟩
  abort _ _ kept := kept.abort
  cancel _ kept := kept.cancel
  uncancelled _ _ kept uncancelled := kept.uncancelled uncancelled
  pending spawned aborting kept := by
    obtain ⟨⟨life, output, panicked, completed, trace⟩, wrapper, handle⟩ := spawned
    obtain ⟨rfl, rfl⟩ : life = .running aborting ∧ panicked = false := kept
    exact ⟨rfl, rfl, rfl⟩
  ready spawned result kept := by
    obtain ⟨⟨life, output, panicked, completed, trace⟩, wrapper, ⟨requested, resolved⟩⟩ := spawned
    rcases result with (_ | _) | value
    · obtain rfl : life = .ended (.error .cancelled) := kept
      cases resolved <;> rfl
    · obtain rfl : life = .ended (.error .panic) := kept.1
      cases resolved <;> rfl
    · obtain ⟨rfl, rfl, rfl⟩ : life = .ended (.ok ()) ∧ panicked = false ∧ output = some value := kept
      cases resolved <;> rfl

end Engine

section ObservedNative

/-- Tokio sees an observed task that panicked end well; the flag tells. -/
def ObservedSim (spawned : Spawned T Unit ObservedTask) (life : Life T) : Prop :=
  Carries (.ok ()) spawned.world life ∧ (life.isRunning = true → spawned.wrapper.finished = false)

theorem observedNative_simulates (task : UInt64) :
    Simulates (observedNative task : Mode T Unit ObservedTask) ObservedSim where
  running _ _ kept := kept.1.running
  poll spawned aborting future kept := by
    obtain ⟨⟨life, output, panicked, completed, trace⟩, ⟨task, completion, attempt, finished⟩, handle⟩ := spawned
    obtain ⟨⟨rfl, rfl⟩, isOpen⟩ : (life = .running aborting ∧ panicked = false) ∧ _ := kept
    obtain rfl : finished = false := isOpen rfl
    cases future with
    | pending => exact ⟨⟨rfl, rfl⟩, fun _ => rfl⟩
    | ready value => cases completion <;> exact ⟨⟨rfl, rfl, rfl⟩, nofun⟩
    | panicked => cases completion <;> exact ⟨⟨rfl, fun _ => rfl⟩, nofun⟩
  abort spawned life kept := by
    refine ⟨kept.1.abort, fun isRunning => kept.2 ?_⟩
    cases life with
    | running aborting => rfl
    | ended result => cases isRunning
  cancel _ kept := ⟨kept.1.cancel.1, kept.1.cancel.2, nofun⟩
  uncancelled _ _ kept uncancelled := kept.1.uncancelled uncancelled
  pending spawned aborting kept := by
    obtain ⟨⟨life, output, panicked, completed, trace⟩, wrapper, ⟨requested, resolved⟩⟩ := spawned
    obtain ⟨⟨rfl, rfl⟩, isOpen⟩ : (life = .running aborting ∧ panicked = false) ∧ _ := kept
    cases requested <;> exact ⟨rfl, ⟨rfl, rfl⟩, isOpen⟩
  ready spawned result kept := by
    obtain ⟨⟨life, output, panicked, completed, trace⟩, wrapper, ⟨requested, resolved⟩⟩ := spawned
    rcases result with (_ | _) | value
    · obtain rfl : life = .ended (.error .cancelled) := kept.1
      cases requested <;> cases resolved <;> rfl
    · obtain ⟨rfl, marked⟩ : life = .ended (.ok ()) ∧ _ := kept.1
      obtain rfl : panicked = true := marked rfl
      cases requested <;> cases resolved <;> rfl
    · obtain ⟨rfl, rfl, rfl⟩ : life = .ended (.ok ()) ∧ panicked = false ∧ output = some value := kept.1
      cases requested <;> cases resolved <;> rfl

end ObservedNative

/-- **Interchangeable spawn modes.** Whatever the future does, whenever the task is aborted and whenever that takes
effect, the handle answers in all three modes what the life of the task says, and no poll of it up to the first
that is ready panics. -/
theorem spawn_modes_agree (task : UInt64) (actions : List (Action T)) :
    Spawned.joins native { wrapper := () } actions = expected (.running false) actions ∧
      Spawned.joins (observedNative task) { wrapper := .withoutCompletion task } actions =
        expected (.running false) actions ∧
      Spawned.joins engine { wrapper := () } actions = expected (.running false) actions := by
  refine ⟨native_simulates.joins_eq rfl actions, ?_, ?_⟩
  · apply (observedNative_simulates task).joins_eq
    exact ⟨⟨rfl, rfl⟩, fun _ => rfl⟩
  · apply engine_simulates.joins_eq
    exact ⟨rfl, rfl⟩

/-- A task that panics although it was aborted before is joined as a panic in every mode. -/
example : Spawned.joins (observedNative 1) { wrapper := .withoutCompletion 1 }
    [.poll .pending, .join, .abort, .poll (.panicked : PollResult ℕ), .join] =
      [some .pending, some (.ready (.error .panic))] := rfl

end Laplace.Soundness.Spawning
