import Laplace.Model.Cells

/-! # What a load of an option cell reports

The version of an option cell stands in its payload. A load that finds a payload reports exactly the
version of the latest store that was reported; a load of an empty cell reports nothing at all.
-/

namespace Laplace.Soundness.OptionCell

open Laplace.Machine Laplace.Model.Cells Laplace.Model.Cells.OptionCell

variable {T : Type} {resource : UInt64}

/-- The cell as the only thread sees it. -/
abbrev Cell (T : Type) := World (Option (Versioned T)) Unit

/-- The version of the latest store that was reported, zero if there is none. -/
def latestStore (trace : List (Unit × Event)) : UInt64 :=
  trace.foldl (fun latest entry =>
    match entry.2 with
    | .cellStore _ version => version
    | _ => latest) 0

theorem latestStore_cellStore (trace : List (Unit × Event)) (version : UInt64) :
    latestStore (trace ++ [((), .cellStore resource version)]) = version := by
  rw [latestStore, List.foldl_append]
  rfl

theorem latestStore_cellLoad (trace : List (Unit × Event)) (version : UInt64) :
    latestStore (trace ++ [((), .cellLoad resource version)]) = latestStore trace := by
  rw [latestStore, List.foldl_append]
  rfl

/-- A load reports once, and the version of the latest store that was reported. -/
def Honest (resource : UInt64) (world : Cell T) (operation : Operation T) : Prop :=
  operation.isLoad = true → ∀ next, step resource world operation = some next →
    next.trace = world.trace ++ [((), .cellLoad resource (latestStore world.trace))]

/-- A load finds a value. -/
def Filled (world : Cell T) (operation : Operation T) : Prop :=
  operation.isLoad = true → ∃ snapshot, world.published.getLast? = some (some snapshot)

/-- Between two operations nobody holds the version mutex, and a payload carries the version of the latest
store. -/
structure Settled (world : Cell T) : Prop where
  unlocked : world.versionHolder = none
  built : ∃ content, world.published.getLast? = some content
  current : ∀ snapshot, world.published.getLast? = some (some snapshot) → snapshot.version = latestStore world.trace

section Evaluation

attribute [local simp] Operation.program ModelArcSwapOption.store ModelArcSwapOption.load ModelArcSwapOption.loadFull
  publish publishNext withHook perform Program.perform Program.run World.handle World.answer Laplace.Model.Cells.panic

/-- What an operation can do: a store publishes the next version and reports it, or panics and changes
nothing but the mutex; a load reports the version of the payload, if there is one. -/
theorem step_cases {world next : Cell T} {operation : Operation T} (settled : Settled world)
    (stepped : step resource world operation = some next) :
    (∃ value version, operation = .store value ∧ next = { world with
      nextVersion := version
      published := world.published ++ [value.map fun value => { version, value }]
      poisoned := world.poisoned || false
      versionHolder := none
      trace := world.trace ++ [((), .cellStore resource version)] }) ∨
    (∃ value, operation = .store value ∧ next = { world with
      versionHolder := none
      poisoned := world.poisoned || true }) ∨
    (∃ snapshot, operation.isLoad = true ∧ world.published.getLast? = some (some snapshot) ∧
      next = { world with trace := world.trace ++ [((), .cellLoad resource snapshot.version)] }) ∨
    (operation.isLoad = true ∧ world.published.getLast? = some none ∧ next = world) := by
  obtain ⟨unlocked, ⟨content, built⟩, -⟩ := settled
  obtain rfl := Option.some.inj stepped
  cases operation with
  | store value =>
    cases poisoned : world.poisoned with
    | true =>
      refine .inr (.inl ⟨value, rfl, ?_⟩)
      simp [unlocked, poisoned]
    | false =>
      cases counted : checkedSucc world.nextVersion with
      | none =>
        refine .inr (.inl ⟨value, rfl, ?_⟩)
        simp [unlocked, poisoned, counted]
      | some version =>
        refine .inl ⟨value, version, rfl, ?_⟩
        simp [unlocked, poisoned, counted]
  | load =>
    cases content with
    | none =>
      refine .inr (.inr (.inr ⟨rfl, built, ?_⟩))
      simp [built]
    | some snapshot =>
      refine .inr (.inr (.inl ⟨snapshot, rfl, built, ?_⟩))
      simp [built]
  | loadFull =>
    cases content with
    | none =>
      refine .inr (.inr (.inr ⟨rfl, built, ?_⟩))
      simp [built]
    | some snapshot =>
      refine .inr (.inr (.inl ⟨snapshot, rfl, built, ?_⟩))
      simp [built]

end Evaluation

/-- Every operation leaves the cell settled. -/
theorem step_settled {world next : Cell T} {operation : Operation T} (settled : Settled world)
    (stepped : step resource world operation = some next) : Settled next := by
  obtain ⟨value, version, -, rfl⟩ | ⟨value, -, rfl⟩ | ⟨snapshot, -, -, rfl⟩ | ⟨-, -, rfl⟩ :=
    step_cases settled stepped
  · refine ⟨rfl, ⟨_, List.getLast?_concat⟩, fun snapshot last => ?_⟩
    rw [List.getLast?_concat] at last
    obtain ⟨stored, -, rfl⟩ := Option.map_eq_some_iff.mp (Option.some.inj last)
    exact (latestStore_cellStore world.trace version).symm
  · exact ⟨rfl, settled.built, settled.current⟩
  · refine ⟨settled.unlocked, settled.built, fun other last => ?_⟩
    rw [latestStore_cellLoad]
    exact settled.current other last
  · exact settled

/-- A load is honest exactly when it finds a value. -/
theorem honest_iff_filled {world : Cell T} (settled : Settled world) (operation : Operation T) :
    Honest resource world operation ↔ Filled world operation := by
  refine imp_congr_right fun isLoad => ?_
  constructor
  · intro honest
    have reported := honest _ rfl
    obtain ⟨value, version, rfl, -⟩ | ⟨value, rfl, -⟩ | ⟨snapshot, -, found, -⟩ | ⟨-, -, same⟩ :=
      step_cases settled (rfl : step resource world operation = _)
    · cases isLoad
    · cases isLoad
    · exact ⟨snapshot, found⟩
    · -- A load of an empty cell leaves the trace as it was.
      have lengths := congrArg (fun world : Cell T => world.trace.length) same
      simp only [reported, List.length_append, List.length_singleton] at lengths
      omega
  · rintro ⟨snapshot, found⟩ next stepped
    obtain ⟨value, version, rfl, -⟩ | ⟨value, rfl, -⟩ | ⟨other, -, found', rfl⟩ | ⟨-, empty, -⟩ :=
      step_cases settled stepped
    · cases isLoad
    · cases isLoad
    · rw [settled.current other found']
    · rw [found] at empty
      cases empty

/-- The constructors leave the cell settled. -/
theorem create_settled {value : Option T} {counter : UInt64} {world : Cell T}
    (created : (ModelArcSwapOption.new value).run World.handle { nextResource := counter } = (some resource, world)) :
    Settled world := by
  simp only [ModelArcSwapOption.new, create, perform, Program.perform, Program.call_bind, Program.done_bind,
      Program.run,
    World.handle, World.answer] at created
  cases counted : checkedSucc counter with
  | none =>
    simp [counted, Laplace.Model.Cells.panic, Program.run, World.handle, World.answer] at created
  | some next =>
    simp [counted, withHook, Program.run, World.handle, World.answer, Program.perform] at created
    obtain ⟨rfl, rfl⟩ := created
    refine ⟨rfl, ⟨_, rfl⟩, fun snapshot last => ?_⟩
    obtain ⟨stored, -, rfl⟩ := Option.map_eq_some_iff.mp (Option.some.inj last)
    rfl

/-- **Load reports of an option cell.** In every sequence of stores and loads on a new cell, each load
reports exactly one version, that of the latest store reported, if and only if each load finds a value. -/
theorem option_loads_honest_iff (value : Option T) (counter : UInt64) (operations : List (Operation T))
    {world : Cell T}
    (created : (ModelArcSwapOption.new value).run World.handle { nextResource := counter } = (some resource, world)) :
    Along (step resource) (Honest resource) world operations ↔ Along (step resource) Filled world operations := by
  have settled := create_settled created
  clear created
  induction operations generalizing world with
  | nil => exact Iff.rfl
  | cons operation rest ih =>
    refine and_congr (honest_iff_filled settled operation) ?_
    exact ih (step_settled settled rfl)

/-- A cell that is built with a value, loaded, overwritten and loaded again. -/
theorem option_loads_honest_overwritten :
    Along (step 1) (Honest 1) (((ModelArcSwapOption.new (some 7)).run World.handle { nextResource := 1 }).2)
      [.load, .store (some 8), .loadFull] := by
  refine (option_loads_honest_iff (some 7) 1 _ rfl).mpr ?_
  exact ⟨fun _ => ⟨_, rfl⟩, nofun, fun _ => ⟨_, rfl⟩, trivial⟩

/-- A load of an empty cell reports nothing. -/
theorem option_load_silent :
    ¬ Along (step 1) (Honest 1) (((ModelArcSwapOption.empty (T := ℕ)).run World.handle { nextResource := 1 }).2)
      [.load] := by
  rintro ⟨honest, -⟩
  have reported := honest rfl _ rfl
  cases reported

end Laplace.Soundness.OptionCell
