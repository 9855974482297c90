import Laplace.Machine.Refinement
import Laplace.Machine.WaitOrder
import Laplace.Model.VerifyTest
import Laplace.Soundness.Capture

/-! # Generated tests refine the threads with instrumented locks

An emission counts from where it has the lock of the session's slot. With this the workers of a test run as
`LockPrograms` says, whose trace is what has been emitted so far, and the vector that `finish` returns is the trace of
threads that are done. Conversely every run of these threads that ends is a run of the test. So the events that a test
can capture are the traces of its functions, where each emission is one step.
-/

namespace Laplace.Soundness.VerifyTest

open Laplace.Machine Laplace.Model Laplace.Model.VerifyTest Laplace.Model.LockPrograms
open Laplace.Soundness.Capture (emissions)

/-! ## Windows -/

/-- What is there once is there in one place. -/
theorem split_unique {α : Type*} [DecidableEq α] {entry : α} {before rest before' rest' : List α}
    (once : (before ++ entry :: rest).count entry ≤ 1) (same : before ++ entry :: rest = before' ++ entry :: rest') :
    before = before' ∧ rest = rest' := by
  rw [List.count_append, List.count_cons_self] at once
  have fresh : entry ∉ before := List.count_eq_zero.mp (by omega)
  have fresh' : entry ∉ rest := List.count_eq_zero.mp (by omega)
  have parts := (List.append_cons_inj_of_notMem fresh fresh').mp same
  exact ⟨parts.1, parts.2.2⟩

/-- The session's sink was installed before anything was emitted. -/
def Opened (log : List Capture.Entry) (session : Capture.Session) : Prop :=
  ∃ before rest, log = before ++ .installed session :: rest ∧ emissions before = []

theorem Opened.append {log : List Capture.Entry} {session : Capture.Session} (opened : Opened log session)
    (entries : List Capture.Entry) : Opened (log ++ entries) session := by
  obtain ⟨before, rest, rfl, silent⟩ := opened
  exact ⟨before, rest ++ entries, by rw [List.append_assoc, List.cons_append], silent⟩

/-- The window of a session that was opened so has all emissions. -/
theorem Opened.emissions {log : List Capture.Entry} {session : Capture.Session} {window : List Capture.Entry}
    (opened : Opened log session) (once : log.count (.installed session) ≤ 1)
    (isOpen : Capture.OpenWindow log session window) : emissions window = emissions log := by
  obtain ⟨before, rest, rfl, silent⟩ := opened
  obtain ⟨⟨before', same⟩, -⟩ := isOpen
  obtain ⟨rfl, rfl⟩ := split_unique once same
  rw [Capture.emissions_append, silent, List.nil_append]
  rfl

/-- A closed window begins at the only installation and ends where the sink changes first. -/
theorem closedWindow_unique {log : List Capture.Entry} {session : Capture.Session} {window window' : List Capture.Entry}
    (once : log.count (.installed session) ≤ 1) (closed : Capture.ClosedWindow log session window)
    (closed' : Capture.ClosedWindow log session window') : window = window' := by
  obtain ⟨⟨before, later, rfl⟩, silent⟩ := closed
  obtain ⟨⟨before', later', same⟩, silent'⟩ := closed'
  rw [List.append_assoc, List.cons_append] at once same
  rw [List.append_assoc, List.cons_append] at same
  have taken (entries more : List Capture.Entry) (quiet : ∀ entry ∈ entries, Capture.changesSink entry = false) :
      (entries ++ .cleared session :: more).takeWhile (fun entry => !Capture.changesSink entry) = entries := by
    rw [List.takeWhile_append_of_pos fun entry member => by rw [quiet entry member]; rfl,
      List.takeWhile_cons_of_neg (by simp [Capture.changesSink]), List.append_nil]
  rw [← taken window later silent, (split_unique once same).2, taken window' later' silent']

/-! ## What the steps of a call can do -/

section Frames

variable {state next : Capture.State} {action : Capture.Action}

theorem goto_pcs (capture : Capture.State) (thread : Capture.Tid) (point : Capture.Pc) :
    (capture.goto thread point).pcs thread = point := Function.update_self ..

theorem sound_initial : Capture.Sound {} := @Capture.sound_reachable [] _ rfl nofun

theorem sound_step (sound : Capture.Sound state) (modern : action.installsLegacy = false)
    (stepped : Capture.step state action = some next) : Capture.Sound next :=
  ⟨Capture.locks_step sound.locks stepped, Capture.flow_step sound.locks sound.flow stepped,
    Capture.names_step sound.locks sound.names stepped, Capture.noLegacy_step modern sound.noLegacy stepped⟩

/-- A step is one of its caller. -/
theorem step_others (stepped : Capture.step state action = some next) {other : Capture.Tid}
    (notCaller : ∀ call, call? action ≠ some (other, call)) :
    next.pcs other = state.pcs other ∧ next.sessions other = state.sessions other := by
  have apart {thread : Capture.Tid} {call : Call} (caller : call? action = some (thread, call)) : other ≠ thread := by
    rintro rfl
    exact notCaller call caller
  cases Capture.step_transition stepped with
  | collect | collectEnd | emitLegacy => exact ⟨rfl, rfl⟩
  | beginSpawn | tearFinish | tearDrop =>
    exact ⟨Function.update_of_ne (apart rfl) .., Function.update_of_ne (apart rfl) ..⟩
  | _ => exact ⟨Function.update_of_ne (apart rfl) .., rfl⟩

/-- Only an emission that takes the slot lock is logged as one. -/
theorem step_log (stepped : Capture.step state action = some next) :
    ∃ entries, next.log = state.log ++ entries ∧
      ((∀ thread, action ≠ .emitSlotLock thread) → emissions entries = []) := by
  cases Capture.step_transition stepped with
  | beginInstall | beginSpawnFailed | tearClear | tearFinish => exact ⟨_, rfl, fun _ => rfl⟩
  | emitSlotLock => exact ⟨_, rfl, fun silent => absurd rfl (silent _)⟩
  | _ => exact ⟨[], (List.append_nil _).symm, fun _ => rfl⟩

/-- What does not take the slot lock for an emission leaves the emissions as they are. -/
theorem emissions_of_silent (stepped : Capture.step state action = some next)
    (silent : ∀ thread, action ≠ .emitSlotLock thread) : emissions next.log = emissions state.log := by
  obtain ⟨entries, grown, quiet⟩ := step_log stepped
  rw [grown, Capture.emissions_append, quiet silent, List.append_nil]

theorem step_emissions (stepped : Capture.step state action = some next)
    (silent : ∀ thread, call? action ≠ some (thread, .emit)) : emissions next.log = emissions state.log := by
  refine emissions_of_silent stepped ?_
  rintro thread rfl
  exact silent thread rfl

end Frames

/-! ## The invariant -/

section Invariant

variable {threads : ℕ}

/-- The test thread owns a session that was opened before anything was emitted. -/
def Owns (capture : Capture.State) (session : Capture.Session) : Prop :=
  capture.sessions 0 = some session ∧ Opened capture.log session

/-- How far the test thread is in `finish`. -/
inductive Closing (capture : Capture.State) (session : Capture.Session) : Prop where
  | entered (owns : Owns capture session)
      (point : capture.pcs 0 = .idle ∨ capture.pcs 0 = .tearing session true)
  | cleared {window : List Capture.Entry} (closed : Capture.ClosedWindow capture.log session window)
      (whole : emissions window = emissions capture.log)
      (point : capture.pcs 0 = .joining session true ∨ ∃ events, capture.pcs 0 = .joined session true events)

/-- What holds where the test thread stands. -/
def AtStage (state : State threads) : TestStage → Prop
  | .beginning => emissions state.capture.log = []
  | .running _ joined => (∃ session, Owns state.capture session ∧ state.capture.pcs 0 = .idle) ∧
      ∀ worker : Fin threads, worker < joined → state.isDone worker = true
  | .finishing => (∃ session, Closing state.capture session) ∧ ∀ worker, state.isDone worker = true
  | .finished events => events = emissions state.capture.log ∧ ∀ worker, state.isDone worker = true

structure Proper (state : State threads) : Prop where
  sound : Capture.Sound state.capture
  atStage : AtStage state state.stage

variable {state next : State threads}

theorem isDone_iff {worker : Fin threads} : state.isDone worker = true ↔
    (∃ value, state.program worker = .done value) ∧ state.capture.pcs (tid worker) = .idle := by
  rw [State.isDone]
  cases state.program worker with
  | call effect rest => exact iff_of_false nofun (fun done => absurd done.1 nofun)
  | done value => cases state.capture.pcs (tid worker) <;> simp

theorem isDone_congr {worker : Fin threads} (program : next.program worker = state.program worker)
    (point : next.capture.pcs (tid worker) = state.capture.pcs (tid worker)) :
    next.isDone worker = state.isDone worker := by
  rw [State.isDone, State.isDone, program, point]

theorem Owns.carry {capture later : Capture.State} {session : Capture.Session} {entries : List Capture.Entry}
    (owns : Owns capture session) (owned : later.sessions 0 = capture.sessions 0)
    (grown : later.log = capture.log ++ entries) : Owns later session :=
  ⟨owned.trans owns.1, grown ▸ owns.2.append entries⟩

theorem Closing.carry {capture later : Capture.State} {session : Capture.Session} {entries : List Capture.Entry}
    (closing : Closing capture session) (point : later.pcs 0 = capture.pcs 0)
    (owned : later.sessions 0 = capture.sessions 0) (grown : later.log = capture.log ++ entries)
    (same : emissions later.log = emissions capture.log) : Closing later session := by
  cases closing with
  | entered owns at' => exact .entered (owns.carry owned grown) (point ▸ at')
  | cleared closed whole at' => exact .cleared (grown ▸ closed.append entries) (whole.trans same.symm) (point ▸ at')

/-- A step that the test thread does not take, and that emits nothing. -/
theorem AtStage.carry {stage : TestStage} {entries : List Capture.Entry} (holds : AtStage state stage)
    (point : next.capture.pcs 0 = state.capture.pcs 0) (owned : next.capture.sessions 0 = state.capture.sessions 0)
    (grown : next.capture.log = state.capture.log ++ entries)
    (same : emissions next.capture.log = emissions state.capture.log)
    (done : ∀ worker, next.isDone worker = state.isDone worker) : AtStage next stage := by
  cases stage with
  | beginning => exact same.trans holds
  | running spawned joined =>
    obtain ⟨⟨session, owns, idle⟩, ended⟩ := holds
    exact ⟨⟨session, owns.carry owned grown, point.trans idle⟩,
      fun worker early => (done worker).trans (ended worker early)⟩
  | finishing =>
    obtain ⟨⟨session, closing⟩, ended⟩ := holds
    exact ⟨⟨session, closing.carry point owned grown same⟩, fun worker => (done worker).trans (ended worker)⟩
  | finished events =>
    obtain ⟨whole, ended⟩ := holds
    exact ⟨whole.trans same.symm, fun worker => (done worker).trans (ended worker)⟩

/-! ## What the steps of a test can do -/

/-- Who takes a step inside a call. -/
theorem mayCall_cases {stage : TestStage} {caller : Option (Capture.Tid × Call)}
    (may : mayCall threads stage caller = true) :
    (caller = some (0, .begin) ∧ stage = .beginning) ∨ (caller = some (0, .finish) ∧ stage = .finishing) ∨
    (∃ worker : Fin threads, caller = some (tid worker, .emit) ∧ ∃ spawned joined, stage = .running spawned joined) ∨
    (∀ thread call, caller = some (thread, call) →
      threads < thread ∧ call ≠ .emitStart ∧ call ≠ .emit ∧ call ≠ .setProbeSender) := by
  rcases caller with - | ⟨thread, call⟩
  · exact .inr (.inr (.inr nofun))
  · rcases thread with - | thread
    · cases call <;> simp only [mayCall, beq_iff_eq, Bool.false_eq_true] at may
      · exact .inl ⟨rfl, may⟩
      · exact .inr (.inl ⟨rfl, may⟩)
    · rw [mayCall] at may
      split at may
      · next below =>
        obtain ⟨running, isEmit⟩ := Bool.and_eq_true_iff.mp may
        obtain rfl := beq_iff_eq.mp isEmit
        refine .inr (.inr (.inl ⟨⟨thread, below⟩, rfl, ?_⟩))
        cases stage with
        | running spawned joined => exact ⟨spawned, joined, rfl⟩
        | _ => cases running
      · next above =>
        refine .inr (.inr (.inr ?_))
        rintro _ _ ⟨⟩
        simp only [Bool.and_eq_true, bne_iff_ne] at may
        exact ⟨Nat.lt_succ_of_le (Nat.le_of_not_lt above), may.1.1, may.1.2, may.2⟩

theorem tid_ne_zero (worker : Fin threads) : tid worker ≠ 0 := Nat.succ_ne_zero worker

theorem tid_injective : Function.Injective (@tid threads) := fun _ _ same => Fin.ext (Nat.succ.inj same)

/-- Inside a session an emission goes into it, by three steps. -/
theorem emit_step {capture later : Capture.State} {action : Capture.Action} {thread : Capture.Tid}
    {session : Capture.Session} (noLegacy : Capture.NoLegacy capture)
    (sender : capture.sessionSender = some (some session)) (caller : call? action = some (thread, .emit))
    (stepped : Capture.step capture action = some later) :
    ∃ event,
      (capture.pcs thread = .emitGlobal event ∧ later.pcs thread = .emitSession event ∧ later.log = capture.log) ∨
      (capture.pcs thread = .emitSession event ∧ later.pcs thread = .emitLocked event ∧
        later.log = capture.log ++ [.emitted thread event]) ∨
      (capture.pcs thread = .emitLocked event ∧ later.pcs thread = .idle ∧ later.log = capture.log) := by
  cases Capture.step_transition stepped with
  | emitGlobalLegacy point legacy => exact absurd legacy (noLegacy.2.1 _)
  | @emitCheckGlobal caller' event point =>
    obtain ⟨rfl, -⟩ := Prod.mk.inj (Option.some.inj caller)
    exact ⟨event, .inl ⟨point, Function.update_self .., rfl⟩⟩
  | emitSlotMissing point =>
    -- the slot is not missing
    simp only [Capture.step, point, sender] at stepped
    cases stepped
  | @emitSlotLock caller' event point free =>
    obtain ⟨rfl, -⟩ := Prod.mk.inj (Option.some.inj caller)
    exact ⟨event, .inr (.inl ⟨point, Function.update_self .., rfl⟩)⟩
  | @emitSend caller' event target point installed =>
    obtain ⟨rfl, -⟩ := Prod.mk.inj (Option.some.inj caller)
    exact ⟨event, .inr (.inr ⟨point, Function.update_self .., rfl⟩)⟩
  | emitDiscard point nowhere => exact absurd sender (nowhere session)
  | @tearLock caller' target finish =>
    simp only [call?] at caller
    cases finish <;> cases caller
  | _ => cases caller

/-- The sink of the test thread's session is installed as long as the session is not cleared. -/
theorem Owns.sender {capture : Capture.State} {session : Capture.Session} (sound : Capture.Sound capture)
    (owns : Owns capture session) (uncleared : Capture.sinkCleared (capture.pcs 0) = false) :
    capture.sessionSender = some (some session) ∧ ∃ window, Capture.OpenWindow capture.log session window ∧
      emissions window = emissions capture.log := by
  obtain ⟨collected, -, installed, window, isOpen, -⟩ := sound.flow.active 0 session owns.1 uncleared
  exact ⟨installed, window, isOpen, owns.2.emissions (sound.names.once session) isOpen⟩

/-- A step of the test thread in `finish`. -/
theorem finish_step {capture later : Capture.State} {action : Capture.Action} {session : Capture.Session}
    (sound : Capture.Sound capture) (closing : Closing capture session) (caller : call? action = some (0, .finish))
    (stepped : Capture.step capture action = some later) :
    (Closing later session ∧ TestStage.finishing.after capture action = .finishing) ∨
      TestStage.finishing.after capture action = .finished (emissions later.log) := by
  have finish {thread : Capture.Tid} {call : Call} (same : some (thread, call) = some (0, Call.finish)) :
      thread = 0 ∧ call = .finish := Prod.mk.inj (Option.some.inj same)
  cases Capture.step_transition stepped with
  | @tearLock thread target ends point owned free =>
    obtain ⟨rfl, kind⟩ := finish caller
    cases ends with
    | false => cases kind
    | true =>
      cases closing with
      | entered owns =>
        obtain rfl : target = session := Option.some.inj (owned.symm.trans owns.1)
        exact .inl ⟨.entered (owns.carry rfl (List.append_nil _).symm) (.inr (goto_pcs capture 0 _)), rfl⟩
      | cleared closed whole at' =>
        rw [point] at at'
        rcases at' with elsewhere | ⟨events, elsewhere⟩ <;> cases elsewhere
  | @tearClear thread target ends point =>
    obtain ⟨rfl, -⟩ := finish caller
    cases closing with
    | entered owns at' =>
      obtain ⟨-, window, isOpen, whole⟩ := owns.sender sound (by rw [point]; rfl)
      rw [point] at at'
      rcases at' with elsewhere | same
      · cases elsewhere
      · cases same
        refine .inl ⟨.cleared isOpen.close ?_ (.inl (goto_pcs capture 0 _)), rfl⟩
        refine whole.trans ?_
        change emissions _ = emissions (_ ++ [Capture.Entry.cleared session])
        rw [Capture.emissions_append]
        exact (List.append_nil _).symm
    | cleared closed whole at' =>
      rw [point] at at'
      rcases at' with elsewhere | ⟨events, elsewhere⟩ <;> cases elsewhere
  | @tearJoin thread target ends events point ended =>
    obtain ⟨rfl, -⟩ := finish caller
    cases closing with
    | entered owns at' =>
      rw [point] at at'
      rcases at' with elsewhere | elsewhere <;> cases elsewhere
    | cleared closed whole at' =>
      rw [point] at at'
      rcases at' with same | ⟨events, elsewhere⟩
      · cases same
        exact .inl ⟨.cleared closed whole (.inr ⟨events, goto_pcs ..⟩), rfl⟩
      · cases elsewhere
  | @tearFinish thread target events point =>
    obtain ⟨rfl, -⟩ := finish caller
    right
    obtain ⟨window', closed', rfl⟩ := sound.flow.joined 0 target true events point
    cases closing with
    | entered owns at' =>
      rw [point] at at'
      rcases at' with elsewhere | elsewhere <;> cases elsewhere
    | @cleared window closed whole at' =>
      obtain rfl : target = session := by
        rw [point] at at'
        rcases at' with elsewhere | ⟨events, same⟩
        · cases elsewhere
        · cases same
          rfl
      have shown : emissions window' = emissions (capture.log ++ [.returned target (emissions window')]) := by
        rw [closedWindow_unique (sound.names.once target) closed' closed, whole, Capture.emissions_append]
        exact (List.append_nil _).symm
      simp only [TestStage.after, point]
      exact congrArg TestStage.finished shown
  | @tearDrop thread target events point =>
    obtain ⟨rfl, -⟩ := finish caller
    cases closing with
    | entered owns at' | cleared closed whole at' =>
      rw [point] at at'
      simp at at'
  | _ => cases caller

/-- What each action of a test can do, with the guards under which it does it. -/
inductive Moved (state : State threads) : Action threads → State threads → Prop where
  | capture {action : Capture.Action} {later : Capture.State} (may : mayCall threads state.stage (call? action) = true)
      (stepped : Capture.step state.capture action = some later) :
      Moved state (.capture action) { state with capture := later, stage := state.stage.after state.capture action }
  | begun {session : Capture.Session} (stage : state.stage = .beginning)
      (owned : state.capture.sessions 0 = some session) (point : state.capture.pcs 0 = .idle) :
      Moved state .begun { state with stage := .running 0 0 }
  | spawn {spawned joined : ℕ} (stage : state.stage = .running spawned joined) (more : spawned < threads) :
      Moved state .spawn { state with stage := .running (spawned + 1) joined }
  | join {joined : ℕ} (stage : state.stage = .running threads joined) (ended : joined < threads)
      (done : state.isDone ⟨joined, ended⟩ = true) :
      Moved state .join { state with stage := .running threads (joined + 1) }
  | finish {spawned : ℕ} (stage : state.stage = .running spawned threads) :
      Moved state .finish { state with stage := .finishing }
  | emit {worker : Fin threads} {spawned joined : ℕ} {event : ProbeEvent} {rest : Unit → ThreadM Unit}
      {later : Capture.State} (stage : state.stage = .running spawned joined)
      (point : state.capture.pcs (tid worker) = .idle) (running : state.program worker = .call (.emit event) rest)
      (stepped : Capture.step state.capture (.emitStart (tid worker) event) = some later) :
      Moved state (.work worker)
        { state with capture := later, program := Function.update state.program worker (rest ()) }
  | perform {worker : Fin threads} {spawned joined : ℕ} {effect : Effect} {rest : effect.Reply → ThreadM Unit}
      {reply : effect.Reply} {world : World (Fin threads)} (stage : state.stage = .running spawned joined)
      (point : state.capture.pcs (tid worker) = .idle) (running : state.program worker = .call effect rest)
      (silent : ∀ event, effect ≠ .emit event)
      (answered : World.answer probeThreadId { holders := state.holders } worker effect = some (reply, world)) :
      Moved state (.work worker)
        { state with holders := world.holders, program := Function.update state.program worker (rest reply) }

theorem perform_moved {worker : Fin threads} {spawned joined : ℕ} (stage : state.stage = .running spawned joined)
    (point : state.capture.pcs (tid worker) = .idle)
    (performed : state.perform worker (state.program worker) = some next) : Moved state (.work worker) next := by
  cases running : state.program worker with
  | done value =>
    rw [running] at performed
    cases performed
  | call effect rest =>
    rw [running] at performed
    cases effect with
    | emit event =>
      obtain ⟨later, stepped, rfl⟩ := Option.map_eq_some_iff.mp performed
      exact .emit stage point running stepped
    | _ =>
      simp only [State.perform, Option.map_eq_some_iff] at performed
      obtain ⟨⟨reply, world⟩, answered, rfl⟩ := performed
      exact .perform stage point running nofun answered

theorem step_moved {action : Action threads} (stepped : step state action = some next) :
    Moved state action next := by
  cases action with
  | capture action =>
    simp only [step, Option.ite_none_right_eq_some] at stepped
    obtain ⟨may, moved⟩ := stepped
    obtain ⟨later, stepped, rfl⟩ := Option.map_eq_some_iff.mp moved
    exact .capture may stepped
  | begun =>
    simp only [step] at stepped
    split at stepped
    next session stage owned point =>
      obtain rfl := Option.some.inj stepped
      exact .begun stage owned point
    next => cases stepped
  | spawn =>
    simp only [step] at stepped
    split at stepped
    next spawned joined stage =>
      obtain ⟨more, moved⟩ := Option.ite_none_right_eq_some.mp stepped
      obtain rfl := Option.some.inj moved
      exact .spawn stage more
    next => cases stepped
  | join =>
    simp only [step] at stepped
    split at stepped
    next spawned joined stage =>
      split at stepped
      next ended =>
        obtain ⟨⟨rfl, done⟩, moved⟩ := Option.ite_none_right_eq_some.mp stepped
        obtain rfl := Option.some.inj moved
        exact .join stage ended done
      next => cases stepped
    next => cases stepped
  | finish =>
    simp only [step] at stepped
    split at stepped
    next spawned joined stage =>
      obtain ⟨rfl, moved⟩ := Option.ite_none_right_eq_some.mp stepped
      obtain rfl := Option.some.inj moved
      exact .finish stage
    next => cases stepped
  | work worker =>
    simp only [step] at stepped
    split at stepped
    next spawned joined stage =>
      obtain ⟨⟨-, point⟩, performed⟩ := Option.ite_none_right_eq_some.mp stepped
      exact perform_moved stage point performed
    next => cases stepped

/-! ## The simulation -/

/-- What a worker has still to do, where an emission is done once it has the slot lock. -/
def unsent : Capture.Pc → ThreadM Unit → ThreadM Unit
  | .emitGlobal event, program | .emitSession event, program => .call (.emit event) fun _ => program
  | _, program => program

/-- The workers as threads with instrumented locks. -/
def view (state : State threads) : Config (Fin threads) where
  shared := { holders := state.holders, trace := emissions state.capture.log }
  program worker := unsent (state.capture.pcs (tid worker)) (state.program worker)

/-- A step of one worker at most. -/
theorem view_program {worker : Fin threads}
    (others : ∀ other, other ≠ worker → next.program other = state.program other ∧
      next.capture.pcs (tid other) = state.capture.pcs (tid other)) :
    (view next).program = Function.update (view state).program worker
      (unsent (next.capture.pcs (tid worker)) (next.program worker)) := by
  funext other
  rcases eq_or_ne other worker with rfl | different
  · rw [Function.update_self]
    rfl
  · rw [Function.update_of_ne different]
    change unsent (next.capture.pcs (tid other)) (next.program other) = _
    rw [(others other different).1, (others other different).2]
    rfl

/-- A step that the workers do not notice. -/
theorem view_congr (holders : next.holders = state.holders)
    (same : emissions next.capture.log = emissions state.capture.log)
    (programs : ∀ worker, (view next).program worker = (view state).program worker) : view next = view state := by
  have shared : (view next).shared = (view state).shared := by rw [view, view, holders, same]
  exact congrArg₂ System.Config.mk shared (funext programs)

/-- An effect that the workers' threads perform. -/
theorem view_step {worker : Fin threads} {effect : Effect} {rest : effect.Reply → ThreadM Unit} (reply : effect.Reply)
    (running : (view state).program worker = .call effect rest)
    (answered : World.answer probeThreadId (view state).shared worker effect = some (reply, (view next).shared))
    (moved : (view next).program = Function.update (view state).program worker (rest reply)) :
    (lockPrograms probeThreadId).step (view state) (.advance worker ()) = some (view next) := by
  simp only [System.step, running, lockPrograms]
  rw [answered, Option.map_some, ← moved]

theorem modern_of_mayCall {stage : TestStage} {action : Capture.Action}
    (may : mayCall threads stage (call? action) = true) : action.installsLegacy = false := by
  cases action with
  | setProbeSender thread sink =>
    obtain ⟨same, -⟩ | ⟨same, -⟩ | ⟨worker, same, -⟩ | others := mayCall_cases may
    · cases same
    · cases same
    · cases same
    · exact absurd rfl (others _ _ rfl).2.2.2
  | _ => rfl

/-- Who takes a step in `emit` is not idle. -/
theorem emit_busy {capture later : Capture.State} {action : Capture.Action} {thread : Capture.Tid}
    (caller : call? action = some (thread, .emit)) (stepped : Capture.step capture action = some later) :
    capture.pcs thread ≠ .idle := by
  cases Capture.step_transition stepped with
  | emitGlobalLegacy point | emitCheckGlobal point | emitSlotMissing point | emitSlotLock point | emitSend point
  | emitDiscard point =>
    cases caller
    rw [point]
    nofun
  | @tearLock thread session finish =>
    simp only [call?] at caller
    cases finish <;> cases caller
  | _ => cases caller

/-- A worker that is done takes no step in a call. -/
theorem isDone_capture {action : Capture.Action} {later : Capture.State} (stage : TestStage)
    (may : mayCall threads state.stage (call? action) = true) (stepped : Capture.step state.capture action = some later)
    (worker : Fin threads) (done : state.isDone worker = true) :
    ({ state with capture := later, stage } : State threads).isDone worker = true := by
  have idle := (isDone_iff.mp done).2
  have notCaller : ∀ call, call? action ≠ some (tid worker, call) := by
    intro call caller
    obtain ⟨same, -⟩ | ⟨same, -⟩ | ⟨other, same, -⟩ | others := mayCall_cases may
    · exact tid_ne_zero worker (Prod.mk.inj (Option.some.inj (caller.symm.trans same))).1
    · exact tid_ne_zero worker (Prod.mk.inj (Option.some.inj (caller.symm.trans same))).1
    · obtain ⟨thread, rfl⟩ := Prod.mk.inj (Option.some.inj (caller.symm.trans same))
      exact emit_busy caller stepped idle
    · exact absurd (others _ _ caller).1 (Nat.not_lt.mpr worker.2)
  rw [← done]
  exact isDone_congr rfl (step_others stepped notCaller).1

theorem emitStart_others {capture later : Capture.State} {thread other : Capture.Tid} {event : ProbeEvent}
    (stepped : Capture.step capture (.emitStart thread event) = some later) (different : other ≠ thread) :
    later.pcs other = capture.pcs other ∧ later.sessions other = capture.sessions other := by
  refine step_others stepped fun call same => different ?_
  exact (Prod.mk.inj (Option.some.inj same)).1.symm

theorem ne_of_done {worker other : Fin threads} {effect : Effect} {rest : effect.Reply → ThreadM Unit}
    (done : state.isDone other = true) (running : state.program worker = .call effect rest) : other ≠ worker := by
  rintro rfl
  obtain ⟨⟨value, ended⟩, -⟩ := isDone_iff.mp done
  rw [running] at ended
  cases ended

theorem after_eq {stage : TestStage} {capture : Capture.State} {action : Capture.Action}
    (notFinish : call? action ≠ some (0, .finish)) : stage.after capture action = stage := by
  cases action with
  | tearRelease thread =>
    cases thread with
    | zero => exact absurd rfl notFinish
    | succ thread => rfl
  | _ => rfl

/-- **Step lemma.** -/
theorem proper_step {action : Action threads} (proper : Proper state) (stepped : step state action = some next) :
    Proper next := by
  obtain ⟨sound, atStage⟩ := proper
  cases step_moved stepped with
  | @capture taken later may moved =>
    refine ⟨sound_step sound (modern_of_mayCall may) moved, ?_⟩
    have done (stage : TestStage) := isDone_capture stage may moved
    obtain ⟨entries, grown, -⟩ := step_log moved
    obtain ⟨caller, stage⟩ | ⟨caller, stage⟩ | ⟨worker, caller, spawned, joined, stage⟩ | others := mayCall_cases may
    · rw [stage] at atStage
      rw [after_eq (by rw [caller]; nofun), stage]
      exact (step_emissions moved fun thread same => by rw [caller] at same; cases same).trans atStage
    · rw [stage] at atStage ⊢
      obtain ⟨⟨session, closing⟩, ended⟩ := atStage
      rcases finish_step sound closing caller moved with ⟨closing', same⟩ | finished
      · rw [same]
        exact ⟨⟨session, closing'⟩, fun worker => done _ worker (ended worker)⟩
      · rw [finished]
        exact ⟨rfl, fun worker => done _ worker (ended worker)⟩
    · rw [stage] at atStage
      obtain ⟨⟨session, owns, idle⟩, ended⟩ := atStage
      have notMain (call : Call) : call? taken ≠ some (0, call) := by
        rw [caller]
        exact fun same => tid_ne_zero worker (Prod.mk.inj (Option.some.inj same)).1
      obtain ⟨point, owned⟩ := step_others moved notMain
      rw [after_eq (by rw [caller]; nofun), stage]
      exact ⟨⟨session, owns.carry owned grown, point.trans idle⟩,
        fun worker early => done _ worker (ended worker early)⟩
    · have notMain (call : Call) : call? taken ≠ some (0, call) := fun same => Nat.not_lt_zero _ (others _ _ same).1
      obtain ⟨point, owned⟩ := step_others moved notMain
      have silent := step_emissions moved fun thread same => (others _ _ same).2.2.1 rfl
      rw [after_eq (notMain _)]
      refine atStage.carry point owned grown silent fun worker => isDone_congr rfl ?_
      exact (step_others moved fun call same => absurd (others _ _ same).1 (Nat.not_lt.mpr worker.2)).1
  | @begun session stage owned point =>
    rw [stage] at atStage
    obtain ⟨collected, -, -, window, ⟨⟨before, split⟩, -⟩, -⟩ := sound.flow.active 0 session owned (by rw [point]; rfl)
    have silent : emissions before = [] := by
      have whole : emissions (before ++ .installed session :: window) = [] := split ▸ atStage
      rw [Capture.emissions_append] at whole
      exact (List.append_eq_nil_iff.mp whole).1
    exact ⟨sound, ⟨session, ⟨owned, before, window, split, silent⟩, point⟩,
      fun worker early => absurd early (Nat.not_lt_zero _)⟩
  | spawn stage more =>
    rw [stage] at atStage
    exact ⟨sound, atStage⟩
  | join stage ended done =>
    rw [stage] at atStage
    refine ⟨sound, atStage.1, fun worker early => ?_⟩
    rcases Nat.lt_succ_iff_lt_or_eq.mp early with before | last
    · exact atStage.2 worker before
    · obtain rfl : worker = ⟨_, ended⟩ := Fin.ext last
      exact done
  | finish stage =>
    rw [stage] at atStage
    obtain ⟨⟨session, owns, idle⟩, ended⟩ := atStage
    exact ⟨sound, ⟨session, .entered owns (.inl idle)⟩, fun worker => ended worker worker.2⟩
  | @emit worker spawned joined event rest later stage point running moved =>
    rw [stage] at atStage
    obtain ⟨⟨session, owns, idle⟩, ended⟩ := atStage
    obtain ⟨entries, grown, -⟩ := step_log moved
    obtain ⟨point', owned⟩ := emitStart_others moved (tid_ne_zero worker).symm
    refine ⟨sound_step sound rfl moved, ?_⟩
    change AtStage _ state.stage
    rw [stage]
    refine ⟨⟨session, owns.carry owned grown, point'.trans idle⟩, fun other early => ?_⟩
    have different := ne_of_done (ended other early) running
    rw [← ended other early]
    exact isDone_congr (Function.update_of_ne different ..) (emitStart_others moved (tid_injective.ne different)).1
  | @perform worker spawned joined effect rest reply world stage point running silent answered =>
    rw [stage] at atStage
    obtain ⟨owned, ended⟩ := atStage
    refine ⟨sound, ?_⟩
    change AtStage _ state.stage
    rw [stage]
    refine ⟨owned, fun other early => ?_⟩
    rw [← ended other early]
    exact isDone_congr (Function.update_of_ne (ne_of_done (ended other early) running) ..) rfl

/-- What is not an emission does not depend on the trace. -/
theorem answer_trace {worker : Fin threads} {effect : Effect} {reply : effect.Reply}
    {holders : List (Fin threads × String × Access)} {trace : List ProbeEvent} {world : World (Fin threads)}
    (silent : ∀ event, effect ≠ .emit event)
    (answered : World.answer probeThreadId ⟨holders, trace⟩ worker effect = some (reply, world))
    (trace' : List ProbeEvent) :
    World.answer probeThreadId ⟨holders, trace'⟩ worker effect = some (reply, ⟨world.holders, trace'⟩) := by
  cases effect with
  | currentThreadId | give resource access =>
    cases answered
    rfl
  | take resource access =>
    obtain ⟨free, same⟩ := Option.ite_none_right_eq_some.mp answered
    cases same
    exact Option.ite_none_right_eq_some.mpr ⟨free, rfl⟩
  | emit event => exact absurd rfl (silent event)

/-- The actions that the workers' threads notice, each with its worker: an emission takes the slot lock, or a worker
performs another effect. -/
inductive Advances (state : State threads) : Action threads → Fin threads → Prop where
  | emitted (worker : Fin threads) : Advances state (.capture (.emitSlotLock (tid worker))) worker
  | performed {worker : Fin threads} {effect : Effect} {rest : effect.Reply → ThreadM Unit}
      (running : state.program worker = .call effect rest) (silent : ∀ event, effect ≠ .emit event) :
      Advances state (.work worker) worker

/-- A step of one worker alone. -/
theorem emit_others {taken : Capture.Action} {later : Capture.State} {worker : Fin threads}
    (caller : call? taken = some (tid worker, .emit)) (stepped : Capture.step state.capture taken = some later)
    (other : Fin threads) (different : other ≠ worker) :
    later.pcs (tid other) = state.capture.pcs (tid other) := by
  refine (step_others stepped fun call same => different (tid_injective ?_)).1
  exact (Prod.mk.inj (Option.some.inj (same.symm.trans caller))).1

/-- An emission that takes the slot lock is the effect of its worker. -/
theorem emitted_view {later : Capture.State} {worker : Fin threads} {session : Capture.Session} (stage : TestStage)
    (sound : Capture.Sound state.capture) (sender : state.capture.sessionSender = some (some session))
    (stepped : Capture.step state.capture (.emitSlotLock (tid worker)) = some later) :
    (lockPrograms probeThreadId).step (view state) (.advance worker ()) =
      some (view { state with capture := later, stage }) := by
  obtain ⟨event, ⟨before, now, log⟩ | ⟨before, now, log⟩ | ⟨before, now, log⟩⟩ :=
    emit_step sound.noLegacy sender rfl stepped
  · cases Capture.step_transition stepped with
    | emitSlotLock point => cases point.symm.trans before
  · have running : (view state).program worker = .call (.emit event) fun _ => state.program worker := by
      change unsent (state.capture.pcs (tid worker)) _ = _
      rw [before]
      rfl
    refine view_step () running ?_ ?_
    · have grown : emissions later.log = emissions state.capture.log ++ [event] := by
        rw [log, Capture.emissions_append]
        rfl
      change _ = some ((), World.mk state.holders (emissions later.log))
      rw [grown]
      rfl
    · have sent : unsent (later.pcs (tid worker)) (state.program worker) = state.program worker :=
        congrArg (unsent · (state.program worker)) now
      have others (other : Fin threads) (different : other ≠ worker) : state.program other = state.program other ∧
          later.pcs (tid other) = state.capture.pcs (tid other) := ⟨rfl, emit_others rfl stepped other different⟩
      rw [view_program others]
      exact congrArg (Function.update _ worker) sent
  · cases Capture.step_transition stepped with
    | emitSlotLock point => cases point.symm.trans before

/-- The other steps of an emission are none of its worker. -/
theorem emitting_view {taken : Capture.Action} {later : Capture.State} {worker : Fin threads}
    {session : Capture.Session} (stage : TestStage) (sound : Capture.Sound state.capture)
    (sender : state.capture.sessionSender = some (some session)) (caller : call? taken = some (tid worker, .emit))
    (notLock : taken ≠ .emitSlotLock (tid worker)) (stepped : Capture.step state.capture taken = some later) :
    view { state with capture := later, stage } = view state := by
  have quietly (log : later.log = state.capture.log)
      (own : unsent (later.pcs (tid worker)) (state.program worker) =
        unsent (state.capture.pcs (tid worker)) (state.program worker)) :
      view { state with capture := later, stage } = view state := by
    refine view_congr rfl (congrArg emissions log) fun other => ?_
    rcases eq_or_ne other worker with rfl | different
    · exact own
    · exact congrArg (unsent · _) (emit_others caller stepped other different)
  obtain ⟨event, ⟨before, now, log⟩ | ⟨before, now, log⟩ | ⟨before, now, log⟩⟩ :=
    emit_step sound.noLegacy sender caller stepped
  · exact quietly log (by rw [before, now]; rfl)
  · have same := emissions_of_silent stepped fun thread isLock => notLock (by
      subst isLock
      cases caller
      rfl)
    rw [log, Capture.emissions_append, List.append_right_eq_self] at same
    cases same
  · exact quietly log (by rw [before, now]; rfl)

/-- An action that the workers' threads notice is a step of one. -/
theorem advances_view {action : Action threads} {worker : Fin threads} (proper : Proper state)
    (advances : Advances state action worker) (stepped : step state action = some next) :
    (lockPrograms probeThreadId).step (view state) (.advance worker ()) = some (view next) := by
  obtain ⟨sound, atStage⟩ := proper
  cases advances with
  | emitted =>
    cases step_moved stepped with
    | capture may moved =>
      obtain ⟨caller, -⟩ | ⟨caller, -⟩ | ⟨_, -, spawned, joined, stage⟩ | others := mayCall_cases may
      · cases caller
      · cases caller
      · rw [stage] at atStage
        obtain ⟨⟨session, owns, idle⟩, -⟩ := atStage
        exact emitted_view _ sound (owns.sender sound (by rw [idle]; rfl)).1 moved
      · exact absurd (others _ _ rfl).1 (Nat.not_lt.mpr worker.2)
  | @performed _ effect rest running silent =>
    cases step_moved stepped with
    | emit _ _ running' => cases running'.symm.trans running; exact absurd rfl (silent _)
    | @perform _ spawned joined effect' rest' reply world stage point running' silent' answered =>
      cases running'.symm.trans running
      have now : (view state).program worker = .call effect rest := by
        change unsent (state.capture.pcs (tid worker)) _ = _
        rw [point, running]
        rfl
      refine view_step reply now (answer_trace silent answered _) ?_
      have others (other : Fin threads) (different : other ≠ worker) :
          Function.update state.program worker (rest reply) other = state.program other ∧
            state.capture.pcs (tid other) = state.capture.pcs (tid other) :=
        ⟨Function.update_of_ne different .., rfl⟩
      have onward : unsent (state.capture.pcs (tid worker)) (Function.update state.program worker (rest reply) worker) =
          rest reply := by
        rw [point, Function.update_self]
        rfl
      rw [view_program others]
      exact congrArg (Function.update _ worker) onward

/-- The workers' threads notice no other action. -/
theorem settles_view {action : Action threads} (proper : Proper state)
    (settles : ∀ worker, ¬ Advances state action worker) (stepped : step state action = some next) :
    view next = view state := by
  obtain ⟨sound, atStage⟩ := proper
  cases step_moved stepped with
  | @capture taken later may moved =>
    have quietly (others : ∀ (worker : Fin threads) call, call? taken ≠ some (tid worker, call))
        (silent : ∀ thread, call? taken ≠ some (thread, .emit)) :
        view { state with capture := later, stage := state.stage.after state.capture taken } = view state := by
      refine view_congr rfl (step_emissions moved silent) fun worker => ?_
      exact congrArg (unsent · _) (step_others moved (others worker)).1
    have main {call : Call} (caller : call? taken = some (0, call)) (worker : Fin threads) (call' : Call) :
        call? taken ≠ some (tid worker, call') := by
      rw [caller]
      exact fun same => tid_ne_zero worker (Prod.mk.inj (Option.some.inj same)).1.symm
    obtain ⟨caller, -⟩ | ⟨caller, -⟩ | ⟨worker, caller, spawned, joined, stage⟩ | others := mayCall_cases may
    · exact quietly (main caller) fun thread => by rw [caller]; nofun
    · exact quietly (main caller) fun thread => by rw [caller]; nofun
    · rw [stage] at atStage
      obtain ⟨⟨session, owns, idle⟩, -⟩ := atStage
      refine emitting_view _ sound (owns.sender sound (by rw [idle]; rfl)).1 caller ?_ moved
      rintro rfl
      exact settles worker (.emitted worker)
    · exact quietly (fun worker call same => absurd (others _ _ same).1 (Nat.not_lt.mpr worker.2))
        fun thread same => (others _ _ same).2.2.1 rfl
  | begun | spawn | join | finish => rfl
  | @emit worker spawned joined event rest later stage point running moved =>
    have entered : later.pcs (tid worker) = .emitGlobal event := by
      cases Capture.step_transition moved with
      | emitLegacy idle legacy => exact absurd (legacy.symm.trans (sound.noLegacy.1 _)) nofun
      | emitStart idle => exact goto_pcs ..
    refine view_congr rfl (step_emissions moved nofun) fun other => ?_
    rcases eq_or_ne other worker with rfl | different
    · change unsent (later.pcs (tid other)) (Function.update state.program other (rest ()) other) =
        unsent (state.capture.pcs (tid other)) (state.program other)
      rw [entered, point, running, Function.update_self]
      rfl
    · change unsent (later.pcs (tid other)) (Function.update state.program worker (rest ()) other) = _
      rw [(emitStart_others moved (tid_injective.ne different)).1, Function.update_of_ne different]
      rfl
  | perform stage point running silent answered => exact absurd (.performed running silent) (settles _)

/-- **Simulation.** -/
theorem simulates_step {action : Action threads} (proper : Proper state) (stepped : step state action = some next) :
    view next = view state ∨
      ∃ worker, (lockPrograms probeThreadId).step (view state) (.advance worker ()) = some (view next) := by
  by_cases advances : ∃ worker, Advances state action worker
  · obtain ⟨worker, advances⟩ := advances
    exact .inr ⟨worker, advances_view proper advances stepped⟩
  · exact .inl (settles_view proper (not_exists.mp advances) stepped)

end Invariant

/-! ## Runs -/

section Runs

variable {state final : State threads} {actions : List (Action threads)}

/-- **Run lemma.** A run of a test is a run of its workers as threads with instrumented locks. -/
theorem refines_of_run (proper : Proper state) (reached : run? step state actions = some final) : Proper final ∧
    ∃ schedule, run? (lockPrograms probeThreadId).step (view state) schedule = some (view final) := by
  refine run?_simulated view proper (fun _ _ _ => proper_step) (fun _ _ _ proper stepped => ?_) reached
  exact (simulates_step proper stepped).imp_right fun ⟨worker, moved⟩ => ⟨_, moved⟩

theorem proper_initial (test : Test) : Proper test.initial := ⟨sound_initial, rfl⟩

/-- Threads whose workers are done. -/
theorem finished_view (done : ∀ worker, state.isDone worker = true) : (view state).Finished := by
  intro worker
  obtain ⟨⟨value, ended⟩, idle⟩ := isDone_iff.mp (done worker)
  refine ⟨value, ?_⟩
  change unsent (state.capture.pcs (tid worker)) (state.program worker) = _
  rw [ended, idle]
  rfl

/-- What is captured is the trace of threads that are done. -/
theorem finished_of_run {events : List ProbeEvent} (proper : Proper state)
    (reached : run? step state actions = some final) (ended : final.stage = .finished events) :
    Leads (lockPrograms probeThreadId).step (fun config => config.Finished ∧ config.shared.trace = events)
      (view state) := by
  obtain ⟨⟨-, atStage⟩, schedule, reached⟩ := refines_of_run proper reached
  rw [ended] at atStage
  exact ⟨schedule, view final, reached, finished_view atStage.2, atStage.1.symm⟩

end Runs

end Laplace.Soundness.VerifyTest
