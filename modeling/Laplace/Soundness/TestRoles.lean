import Laplace.Soundness.TestRefinement

/-! # Who makes which calls

The test thread begins and finishes its session, the workers emit, and the other threads do neither of these with what
the test owns. The capture lock is held inside `begin` and by the owner of a session only, so that whoever holds it is
at a known place.
-/

namespace Laplace.Soundness.VerifyTest

open Laplace.Model Laplace.Model.VerifyTest Laplace.Model.LockPrograms

variable {threads : ℕ}

/-- Idle, or in `emit`. -/
def emitting : Capture.Pc → Bool
  | .idle | .emitGlobal _ | .emitSession _ | .emitLocked _ => true
  | _ => false

/-- Neither in `emit` nor in `set_probe_sender`. -/
def hosting : Capture.Pc → Bool
  | .emitGlobal _ | .emitSession _ | .emitLocked _ | .senderStored _ | .senderReset _ => false
  | _ => true

/-- Who makes which calls. -/
structure Roles (state : State threads) : Prop where
  worker : ∀ worker : Fin threads, emitting (state.capture.pcs (tid worker)) = true ∧
    state.capture.sessions (tid worker) = none
  other : ∀ thread, threads < thread → hosting (state.capture.pcs thread) = true
  holder : ∀ thread, state.capture.captureHolder = some thread →
    Capture.beginning (state.capture.pcs thread) = true ∨ state.capture.sessions thread ≠ none
  beginning : state.stage = .beginning →
    (state.capture.pcs 0 = .idle ∨ Capture.beginning (state.capture.pcs 0) = true) ∧
      ∀ worker : Fin threads, state.capture.pcs (tid worker) = .idle
  running : ∀ spawned joined, state.stage = .running spawned joined → joined ≤ spawned ∧ spawned ≤ threads

section Calls

variable {state next : Capture.State} {action : Capture.Action} {thread : Capture.Tid}

/-- A worker in `emit`. -/
theorem emitting_step (caller : call? action = some (thread, .emit)) (stepped : Capture.step state action = some next) :
    emitting (next.pcs thread) = true ∧ next.sessions = state.sessions := by
  cases Capture.step_transition stepped with
  | @tearLock caller' session finish => cases finish <;> cases caller
  | emitGlobalLegacy | emitCheckGlobal | emitSlotMissing | emitSlotLock | emitSend | emitDiscard =>
    cases caller
    exact ⟨congrArg emitting (goto_pcs state thread _), rfl⟩
  | _ => cases caller

/-- The test thread in `begin`. -/
theorem begin_step (caller : call? action = some (thread, .begin)) (stepped : Capture.step state action = some next) :
    next.pcs thread = .idle ∨ Capture.beginning (next.pcs thread) = true := by
  cases Capture.step_transition stepped with
  | @tearLock caller' session finish => cases finish <;> cases caller
  | beginSpawn =>
    cases caller
    exact .inl (goto_pcs state thread _)
  | beginLock | beginReset | beginSlotLock | beginInstall =>
    cases caller
    exact .inr (congrArg Capture.beginning (goto_pcs state thread _))
  | _ => cases caller

/-- Another thread in one of its calls. -/
theorem hosting_step {call : Call} (caller : call? action = some (thread, call))
    (plain : call ≠ .emitStart ∧ call ≠ .emit ∧ call ≠ .setProbeSender)
    (stepped : Capture.step state action = some next) : hosting (next.pcs thread) = true := by
  cases Capture.step_transition stepped with
  | collect | collectEnd => cases caller
  | emitLegacy | emitStart =>
    cases caller
    exact absurd rfl plain.1
  | emitGlobalLegacy | emitCheckGlobal | emitSlotMissing | emitSlotLock | emitSend | emitDiscard =>
    cases caller
    exact absurd rfl plain.2.1
  | setProbeSender | setProbeSenderReset | setProbeSenderGlobal =>
    cases caller
    exact absurd rfl plain.2.2
  | _ =>
    cases caller
    exact congrArg hosting (goto_pcs state thread _)

/-- What the holder of the capture lock holds it for. -/
def Occupied (state : Capture.State) : Prop :=
  ∀ thread, state.captureHolder = some thread →
    Capture.beginning (state.pcs thread) = true ∨ state.sessions thread ≠ none

/-- One thread moves: only its own control point, its session and the lock are to be checked. -/
theorem Occupied.move {point : Capture.Pc} (held : Occupied state)
    (pcs : next.pcs = Function.update state.pcs thread point)
    (sessions : ∀ other, other ≠ thread → next.sessions other = state.sessions other)
    (lock : ∀ other, other ≠ thread → next.captureHolder = some other → state.captureHolder = some other)
    (own : next.captureHolder = some thread → Capture.beginning point = true ∨ next.sessions thread ≠ none) :
    Occupied next := by
  intro other holds
  by_cases same : other = thread
  · rw [same, pcs, Function.update_self]
    exact own (same ▸ holds)
  · rw [pcs, Function.update_of_ne same, sessions other same]
    exact held other (lock other same holds)

/-- The capture lock is held in `begin` and by a session's owner only. -/
theorem held_step (held : Occupied state) (stepped : Capture.step state action = some next) : Occupied next := by
  -- a thread outside of `begin` keeps its session
  have stays {thread : Capture.Tid} {point point' : Capture.Pc} (at' : state.pcs thread = point)
      (outside : Capture.beginning point = false) (holds : state.captureHolder = some thread) :
      Capture.beginning point' = true ∨ state.sessions thread ≠ none := by
    rcases held thread holds with begins | owns
    · rw [at', outside] at begins
      cases begins
    · exact .inr owns
  cases Capture.step_transition stepped with
  | beginLock | beginReset | beginSlotLock | beginInstall =>
    refine held.move rfl (fun _ _ => rfl) (fun other different holds => ?_) fun _ => .inl rfl
    first | exact holds | exact absurd (Option.some.inj holds).symm different
  | beginSpawn =>
    refine held.move rfl (fun _ different => Function.update_of_ne different ..) (fun _ _ => id) fun _ => .inr ?_
    exact Option.ne_none_iff_exists'.mpr ⟨_, Function.update_self ..⟩
  | beginSpawnFailed => exact held.move rfl (fun _ _ => rfl) nofun nofun
  | tearFinish | tearDrop => exact held.move rfl (fun _ different => Function.update_of_ne different ..) nofun nofun
  | tearLock point | tearClear point | tearJoin point | emitSlotLock point | emitSend point | emitDiscard point =>
    exact held.move rfl (fun _ _ => rfl) (fun _ _ => id) (stays point rfl)
  | collect | collectEnd => exact held
  | _ =>
    obtain ⟨thread, point, aside⟩ := Capture.Transition.aside (Capture.step_transition stepped) trivial
    refine held.move aside.pcs (fun _ _ => congrFun aside.sessions _) (fun _ _ holds => aside.captureHolder ▸ holds) ?_
    rw [aside.captureHolder, aside.sessions]
    exact stays rfl (Capture.quiet_roles aside.source).1

end Calls

theorem roles_initial (test : Test) : Roles test.initial := by
  refine ⟨fun _ => ⟨rfl, rfl⟩, fun _ _ => rfl, nofun, fun _ => ⟨.inl rfl, fun _ => rfl⟩, nofun⟩

section Roles

variable {state next : State threads}

/-- The test thread returns from `finish` only. -/
theorem after_finishing (capture : Capture.State) (action : Capture.Action) :
    TestStage.finishing.after capture action = .finishing ∨
      ∃ events, TestStage.finishing.after capture action = .finished events := by
  rw [TestStage.after.eq_def]
  split
  · split
    · exact .inr ⟨_, rfl⟩
    · exact .inl rfl
  · exact .inl rfl

/-- A step inside a call keeps the roles, where it does so for its caller. -/
theorem Roles.capture {action : Capture.Action} {later : Capture.State} {stage : TestStage} (roles : Roles state)
    (stepped : Capture.step state.capture action = some later)
    (worker : ∀ (worker : Fin threads) call, call? action = some (tid worker, call) →
      emitting (later.pcs (tid worker)) = true ∧ later.sessions (tid worker) = none)
    (other : ∀ thread call, threads < thread → call? action = some (thread, call) → hosting (later.pcs thread) = true)
    (beginning : stage = .beginning → (later.pcs 0 = .idle ∨ Capture.beginning (later.pcs 0) = true) ∧
      ∀ worker : Fin threads, later.pcs (tid worker) = .idle)
    (running : ∀ spawned joined, stage = .running spawned joined → joined ≤ spawned ∧ spawned ≤ threads) :
    Roles { state with capture := later, stage } := by
  refine ⟨fun thread => ?_, fun thread beyond => ?_, held_step roles.holder stepped, beginning, running⟩
  · by_cases caller : ∃ call, call? action = some (tid thread, call)
    · obtain ⟨call, caller⟩ := caller
      exact worker thread call caller
    · obtain ⟨point, sessions⟩ := step_others stepped (not_exists.mp caller)
      change emitting (later.pcs (tid thread)) = true ∧ later.sessions (tid thread) = none
      rw [point, sessions]
      exact roles.worker thread
  · by_cases caller : ∃ call, call? action = some (thread, call)
    · obtain ⟨call, caller⟩ := caller
      exact other thread call beyond caller
    · change hosting (later.pcs thread) = true
      rw [(step_others stepped (not_exists.mp caller)).1]
      exact roles.other thread beyond

theorem roles_step {action : Action threads} (roles : Roles state) (stepped : step state action = some next) :
    Roles next := by
  cases step_moved stepped with
  | @capture taken later may moved =>
    have ofMain {call : Call} (caller : call? taken = some (0, call)) {thread : Capture.Tid} {call' : Call}
        (caller' : call? taken = some (thread, call')) : thread = 0 := by
      rw [caller] at caller'
      exact (Prod.mk.inj (Option.some.inj caller')).1.symm
    obtain ⟨caller, stage⟩ | ⟨caller, stage⟩ | ⟨worker, caller, spawned, joined, stage⟩ | others := mayCall_cases may
    · rw [after_eq (by rw [caller]; nofun)]
      have silent (worker : Fin threads) (call : Call) : call? taken ≠ some (tid worker, call) :=
        fun caller' => tid_ne_zero worker (ofMain caller caller')
      refine roles.capture moved (fun worker call caller' => absurd caller' (silent worker call))
        (fun thread call beyond caller' => ?_) (fun _ => ⟨begin_step caller moved, fun worker => ?_⟩) roles.running
      · exact absurd (ofMain caller caller') (Nat.ne_of_gt (Nat.zero_lt_of_lt beyond))
      · rw [(step_others moved (silent worker)).1]
        exact (roles.beginning stage).2 worker
    · have ends := after_finishing state.capture taken
      rw [← stage] at ends
      refine roles.capture moved (fun worker call caller' => absurd (ofMain caller caller') (tid_ne_zero worker))
        (fun thread call beyond caller' => ?_) (fun begins => ?_) fun spawned joined runs => ?_
      · exact absurd (ofMain caller caller') (Nat.ne_of_gt (Nat.zero_lt_of_lt beyond))
      · rw [begins, stage] at ends
        rcases ends with ends | ⟨events, ends⟩ <;> cases ends
      · rw [runs, stage] at ends
        rcases ends with ends | ⟨events, ends⟩ <;> cases ends
    · rw [after_eq (by rw [caller]; exact fun same => tid_ne_zero worker (Prod.mk.inj (Option.some.inj same)).1)]
      refine roles.capture moved (fun other call caller' => ?_) (fun thread call beyond caller' => ?_)
        (fun begins => ?_) roles.running
      · have same := Prod.mk.inj (Option.some.inj (caller'.symm.trans caller))
        obtain rfl := tid_injective same.1
        obtain ⟨point, sessions⟩ := emitting_step caller moved
        exact ⟨point, by rw [sessions]; exact (roles.worker other).2⟩
      · obtain ⟨rfl, -⟩ := Prod.mk.inj (Option.some.inj (caller'.symm.trans caller))
        exact absurd worker.2 (Nat.not_lt.mpr (Nat.le_of_lt_succ beyond))
      · cases stage.symm.trans begins
    · have apart {thread : Capture.Tid} (within : thread ≤ threads) (call : Call) : call? taken ≠ some (thread, call) :=
        fun caller => Nat.not_le.mpr (others _ _ caller).1 within
      rw [after_eq (apart (Nat.zero_le _) _)]
      refine roles.capture moved (fun worker call caller => absurd caller (apart worker.2 call))
        (fun thread call _ caller => hosting_step caller (others _ _ caller).2 moved) (fun begins => ?_) roles.running
      rw [(step_others moved (apart (Nat.zero_le _))).1]
      refine ⟨(roles.beginning begins).1, fun worker => ?_⟩
      rw [(step_others moved (apart (show tid worker ≤ threads from worker.2))).1]
      exact (roles.beginning begins).2 worker
  | begun stage =>
    refine ⟨roles.worker, roles.other, roles.holder, nofun, ?_⟩
    rintro _ _ ⟨⟩
    exact ⟨Nat.le_refl _, Nat.zero_le _⟩
  | spawn stage more =>
    refine ⟨roles.worker, roles.other, roles.holder, nofun, ?_⟩
    rintro _ _ ⟨⟩
    exact ⟨Nat.le_succ_of_le (roles.running _ _ stage).1, more⟩
  | join stage ended =>
    refine ⟨roles.worker, roles.other, roles.holder, nofun, ?_⟩
    rintro _ _ ⟨⟩
    exact ⟨ended, Nat.le_refl _⟩
  | finish => exact ⟨roles.worker, roles.other, roles.holder, nofun, nofun⟩
  | @emit worker spawned joined event rest later stage point running moved =>
    have isWorker {thread : Capture.Tid} {call : Call}
        (caller : call? (.emitStart (tid worker) event) = some (thread, call)) : thread = tid worker :=
      (Prod.mk.inj (Option.some.inj caller)).1.symm
    suffices kept : Roles { state with capture := later, stage := state.stage } from
      ⟨kept.worker, kept.other, kept.holder, kept.beginning, kept.running⟩
    refine roles.capture moved (fun other call caller => ?_) (fun thread call beyond caller => ?_) (fun begins => ?_)
      roles.running
    · obtain rfl := tid_injective (isWorker caller)
      cases Capture.step_transition moved with
      | emitLegacy => exact roles.worker other
      | emitStart => exact ⟨congrArg emitting (goto_pcs state.capture _ _), (roles.worker other).2⟩
    · rw [isWorker caller] at beyond
      exact absurd worker.2 (Nat.not_lt.mpr (Nat.le_of_lt_succ beyond))
    · cases stage.symm.trans begins
  | perform => exact ⟨roles.worker, roles.other, roles.holder, roles.beginning, roles.running⟩

end Roles

end Laplace.Soundness.VerifyTest
