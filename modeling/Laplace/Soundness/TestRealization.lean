import Laplace.Soundness.TestRoles

/-! # What threads with instrumented locks can do, a test can do

From every state that a test can reach, wherever its threads and the sessions of other threads stand, all that its
workers can still do as threads with instrumented locks is done by some run of it. A session of another thread that is
in the way of `begin` ends first. An emission that has the slot lock is completed, and all workers are spawned, while
nothing changes for the workers. Then every effect of a worker is taken alone, an emission with its three steps, and the
events wait in the session's channel. When the workers are done they are joined, the session is finished, and its
collector receives everything that waits.
-/

namespace Laplace.Soundness.VerifyTest

open Laplace.Machine Laplace.Model Laplace.Model.VerifyTest Laplace.Model.LockPrograms

variable {threads : ℕ}

/-- A test whose workers stand so as threads with instrumented locks. -/
structure Stands (config : Config (Fin threads)) (state : State threads) : Prop where
  proper : Proper state
  roles : Roles state
  view : view state = config

theorem stands_of_run {test : Test} {actions : List (Action test.threads)} {state : State test.threads}
    (reached : run? step test.initial actions = some state) : Stands (view state) state := by
  refine run?_invariant (fun state => Stands (VerifyTest.view state) state)
    ⟨proper_initial test, roles_initial test, rfl⟩ (fun _ _ _ _ stands stepped => ?_) reached (fun _ _ => trivial)
  exact ⟨proper_step stands.proper stepped, roles_step stands.roles stepped, rfl⟩

section Settling

variable {config : Config (Fin threads)} {state next : State threads} {post : State threads → Prop}

/-- An action that the workers' threads do not notice. -/
theorem Stands.after (stands : Stands config state) {action : Action threads}
    (stepped : step state action = some next) (settles : ∀ worker, ¬ Advances state action worker)
    (onward : Stands config next → Leads step post next) : Leads step post state :=
  .after stepped (onward ⟨proper_step stands.proper stepped, roles_step stands.roles stepped,
    (settles_view stands.proper settles stepped).trans stands.view⟩)

/-- An action that is the next effect of a worker. -/
theorem Stands.advance (stands : Stands config state) {action : Action threads} {worker : Fin threads}
    {config' : Config (Fin threads)}
    (coarse : (lockPrograms probeThreadId).step config (.advance worker ()) = some config')
    (advances : Advances state action worker) (stepped : step state action = some next)
    (onward : Stands config' next → Leads step post next) : Leads step post state := by
  refine .after stepped (onward ⟨proper_step stands.proper stepped, roles_step stands.roles stepped, ?_⟩)
  have same := advances_view stands.proper advances stepped
  rw [stands.view, coarse] at same
  exact (Option.some.inj same).symm

/-- Neither takes the slot lock for an emission nor returns from `finish`. -/
def settling : Capture.Action → Bool
  | .emitSlotLock _ | .tearRelease _ => false
  | _ => true

theorem Stands.call (stands : Stands config state) {action : Capture.Action} {later : Capture.State}
    (stepped : Capture.step state.capture action = some later) (may : mayCall threads state.stage (call? action) = true)
    (settles : settling action = true)
    (onward : Stands config { state with capture := later } → Leads step post { state with capture := later }) :
    Leads step post state := by
  have stays : state.stage.after state.capture action = state.stage := by
    cases action with
    | tearRelease thread => cases settles
    | _ => rfl
  have moved : step state (.capture action) = some { state with capture := later } := by
    rw [step, if_pos may, stepped, Option.map_some, stays]
  refine stands.after moved (fun worker advances => ?_) onward
  cases advances with
  | emitted => cases settles

/-- A call of another thread. -/
theorem mayCall_other {thread : Capture.Tid} (beyond : threads < thread) (stage : TestStage) {call : Call}
    (plain : (call != .emitStart && call != .emit && call != .setProbeSender) = true) :
    mayCall threads stage (some (thread, call)) = true := by
  cases thread with
  | zero => cases beyond
  | succ thread =>
    rw [mayCall, if_neg (Nat.not_lt.mpr (Nat.le_of_lt_succ beyond)), plain]

/-- The slot lock belongs to the holder of the capture lock, or to an emission. -/
theorem slot_cases {capture : Capture.State} {owner thread : Capture.Tid} (locks : Capture.Locks capture)
    (holder : capture.captureHolder = some owner) (holds : Capture.holdsSlot (capture.pcs thread) = true) :
    thread = owner ∨ ∃ event, capture.pcs thread = .emitLocked event := by
  have same (inside : capture.sessions thread ≠ none ∨ Capture.beginning (capture.pcs thread) = true) :
      thread = owner :=
    Option.some.inj ((locks.capture thread inside).symm.trans holder)
  cases point : capture.pcs thread with
  | slotLocked => exact .inl (same (.inr (by rw [point]; rfl)))
  | tearing session finish =>
    have owned := locks.closing thread session (by rw [point]; rfl)
    exact .inl (same (.inl (by rw [owned]; exact Option.some_ne_none _)))
  | emitLocked event => exact .inr ⟨event, rfl⟩
  | _ =>
    rw [point] at holds
    cases holds

theorem slot_free {capture : Capture.State} (locks : Capture.Locks capture)
    (nobody : ∀ thread, Capture.holdsSlot (capture.pcs thread) = false) : capture.slotHolder = none := by
  cases held : capture.slotHolder with
  | none => rfl
  | some thread =>
    have holds := (locks.slot thread).mpr held
    rw [nobody thread] at holds
    cases holds

/-- Where no worker is in `emit`, a thread with the capture lock finds the slot free. -/
theorem Stands.slot_idle (stands : Stands config state)
    (workers : ∀ worker : Fin threads, state.capture.pcs (tid worker) = .idle)
    (main : ∀ event, state.capture.pcs 0 ≠ .emitLocked event) {owner : Capture.Tid}
    (holder : state.capture.captureHolder = some owner)
    (outside : Capture.holdsSlot (state.capture.pcs owner) = false) : state.capture.slotHolder = none := by
  refine slot_free stands.proper.sound.locks fun thread => ?_
  by_contra holds
  rcases slot_cases stands.proper.sound.locks holder (Bool.not_eq_false _ ▸ holds) with rfl | ⟨event, locked⟩
  · exact holds outside
  · rcases Nat.lt_or_ge threads thread with beyond | within
    · have hosts := stands.roles.other thread beyond
      rw [locked] at hosts
      cases hosts
    · cases thread with
      | zero => exact main event locked
      | succ worker =>
        have idle : state.capture.pcs (worker + 1) = .idle := workers ⟨worker, within⟩
        rw [locked] at idle
        cases idle

theorem Stands.slot_beginning (stands : Stands config state) (isStage : state.stage = .beginning)
    {owner : Capture.Tid} (holder : state.capture.captureHolder = some owner)
    (outside : Capture.holdsSlot (state.capture.pcs owner) = false) : state.capture.slotHolder = none := by
  obtain ⟨main, workers⟩ := stands.roles.beginning isStage
  refine stands.slot_idle workers (fun event locked => ?_) holder outside
  rw [locked] at main
  rcases main with main | main <;> cases main

/-! ## Sessions -/

variable {stage : TestStage} {thread : Capture.Tid} {session : Capture.Session} {finish : Bool}

/-- The thread has joined the collector of its session. -/
def Joined (config : Config (Fin threads)) (stage : TestStage) (thread : Capture.Tid) (session : Capture.Session)
    (finish : Bool) (state : State threads) : Prop :=
  Stands config state ∧ state.stage = stage ∧ ∃ events, state.capture.pcs thread = .joined session finish events

theorem Stands.join {events : List ProbeEvent} (stands : Stands config state) (isStage : state.stage = stage)
    (may : mayCall threads stage (some (thread, .finish)) = true)
    (point : state.capture.pcs thread = .joining session finish)
    (ended : (state.capture.channels session).receiver = .finished events) :
    Leads step (Joined config stage thread session finish) state := by
  have stepped : Capture.step state.capture (.tearJoin thread) =
      some (state.capture.goto thread (.joined session finish events)) := by
    simp only [Capture.step, point, ended]
  exact stands.call stepped (isStage ▸ may) rfl fun stands =>
    .here ⟨stands, isStage, events, goto_pcs ..⟩

/-- The collector receives what waits, and returns to the thread that joins it. -/
theorem Stands.joins (stands : Stands config state) (isStage : state.stage = stage)
    (may : mayCall threads stage (some (thread, .finish)) = true)
    (point : state.capture.pcs thread = .joining session finish) :
    Leads step (Joined config stage thread session finish) state := by
  induction waiting : (state.capture.channels session).queue generalizing state with
  | nil =>
    obtain ⟨-, gone, window, -, ⟨collected, running, -⟩ | ended⟩ := stands.proper.sound.flow.joining _ _ _ point
    · have ready : state.capture.channels session = ⟨[], .running collected⟩ := by rw [← waiting, ← running]
      have stepped : Capture.step state.capture (.collectEnd session) = some { state.capture with
          channels := Function.update state.capture.channels session ⟨[], .finished collected⟩ } := by
        simp only [Capture.step, if_neg gone, ready]
      have ended : (Function.update state.capture.channels session ⟨[], .finished collected⟩ session).receiver =
          .finished collected := by rw [Function.update_self]
      exact stands.call stepped rfl rfl fun stands => stands.join isStage may point ended
    · exact stands.join isStage may point ended
  | cons event queue ih =>
    obtain ⟨-, gone, window, -, ⟨collected, running, -⟩ | ended⟩ := stands.proper.sound.flow.joining _ _ _ point
    · have ready : state.capture.channels session = ⟨event :: queue, .running collected⟩ := by rw [← waiting, ← running]
      have stepped : Capture.step state.capture (.collect session) = some { state.capture with
          channels := Function.update state.capture.channels session ⟨queue, .running (collected ++ [event])⟩ } := by
        simp only [Capture.step, ready]
      have rest : (Function.update state.capture.channels session
          ⟨queue, .running (collected ++ [event])⟩ session).queue = queue := by rw [Function.update_self]
      exact stands.call stepped rfl rfl fun stands => ih stands isStage point rest
    · exact stands.join isStage may point ended

/-- The tear-down, from where it has the slot lock. -/
theorem Stands.clears (stands : Stands config state) (isStage : state.stage = stage)
    (may : mayCall threads stage (some (thread, .finish)) = true)
    (point : state.capture.pcs thread = .tearing session finish) :
    Leads step (Joined config stage thread session finish) state := by
  have stepped : Capture.step state.capture (.tearClear thread) =
      some { (state.capture.goto thread (.joining session finish)).record (.cleared session) with
        sessionSender := some none
        slotHolder := none } := by
    simp only [Capture.step, point]
  exact stands.call stepped (isStage ▸ may) rfl fun stands =>
    stands.joins isStage may (goto_pcs state.capture thread _)

/-- The whole `finish` of a thread's session, up to its return. -/
theorem Stands.finishes (stands : Stands config state) (isStage : state.stage = stage)
    (may : mayCall threads stage (some (thread, .finish)) = true) (point : state.capture.pcs thread = .idle)
    (owned : state.capture.sessions thread = some session) (free : state.capture.slotHolder = none) :
    Leads step (Joined config stage thread session true) state := by
  have stepped : Capture.step state.capture (.tearLock thread true) =
      some { state.capture.goto thread (.tearing session true) with slotHolder := some thread } := by
    simp only [Capture.step, point, owned, free]
  exact stands.call stepped (isStage ▸ may) rfl fun stands =>
    stands.clears isStage may (goto_pcs state.capture thread _)

/-! ## The beginning -/

/-- Before the test thread's session, this thread owns one. -/
def Begun (config : Config (Fin threads)) (thread : Capture.Tid) (state : State threads) : Prop :=
  Stands config state ∧ state.stage = .beginning ∧ state.capture.captureHolder = some thread ∧
    state.capture.pcs thread = .idle ∧ ∃ session, state.capture.sessions thread = some session

theorem Stands.collects (stands : Stands config state) (isStage : state.stage = .beginning)
    (may : mayCall threads .beginning (some (thread, .begin)) = true)
    (point : state.capture.pcs thread = .installed session) : Leads step (Begun config thread) state := by
  have stepped : Capture.step state.capture (.beginSpawn thread) = some { state.capture.goto thread .idle with
      channels := Function.update state.capture.channels session
        { state.capture.channels session with receiver := .running [] }
      sessions := Function.update state.capture.sessions thread (some session) } := by
    simp only [Capture.step, point]
  have holder := stands.proper.sound.locks.capture thread (.inr (by rw [point]; rfl))
  exact stands.call stepped (isStage ▸ may) rfl fun stands =>
    .here ⟨stands, isStage, holder, goto_pcs state.capture thread _, session, Function.update_self ..⟩

theorem Stands.installs (stands : Stands config state) (isStage : state.stage = .beginning)
    (may : mayCall threads .beginning (some (thread, .begin)) = true)
    (point : state.capture.pcs thread = .slotLocked session) : Leads step (Begun config thread) state := by
  have stepped : Capture.step state.capture (.beginInstall thread) =
      some { (state.capture.goto thread (.installed session)).record (.installed session) with
        sessionSender := some (some session)
        slotHolder := none } := by
    simp only [Capture.step, point]
  exact stands.call stepped (isStage ▸ may) rfl fun stands =>
    stands.collects isStage may (goto_pcs state.capture thread _)

theorem Stands.reserves (stands : Stands config state) (isStage : state.stage = .beginning)
    (may : mayCall threads .beginning (some (thread, .begin)) = true)
    (point : state.capture.pcs thread = .counterReset) : Leads step (Begun config thread) state := by
  have holder := stands.proper.sound.locks.capture thread (.inr (by rw [point]; rfl))
  have free := stands.slot_beginning isStage holder (by rw [point]; rfl)
  have stepped : Capture.step state.capture (.beginSlotLock thread) =
      some { state.capture.goto thread (.slotLocked state.capture.nextSession) with
        sessionSender := some (Capture.getOrInit state.capture.sessionSender)
        slotHolder := some thread
        nextSession := state.capture.nextSession + 1 } := by
    simp only [Capture.step, point, free]
  exact stands.call stepped (isStage ▸ may) rfl fun stands =>
    stands.installs isStage may (goto_pcs state.capture thread _)

/-- The rest of `begin`. -/
theorem Stands.begins (stands : Stands config state) (isStage : state.stage = .beginning)
    (may : mayCall threads .beginning (some (thread, .begin)) = true)
    (inside : Capture.beginning (state.capture.pcs thread) = true) : Leads step (Begun config thread) state := by
  cases point : state.capture.pcs thread with
  | captureLocked =>
    have stepped : Capture.step state.capture (.beginReset thread) =
        some { state.capture.goto thread .counterReset with nextImplicitThreadId := 0 } := by
      simp only [Capture.step, point]
    exact stands.call stepped (isStage ▸ may) rfl fun stands =>
      stands.reserves isStage may (goto_pcs state.capture thread _)
  | counterReset => exact stands.reserves isStage may point
  | slotLocked => exact stands.installs isStage may point
  | installed => exact stands.collects isStage may point
  | _ =>
    rw [point] at inside
    cases inside

/-- Nobody has the capture lock, and the test thread is still to begin its session. -/
def Unheld (config : Config (Fin threads)) (state : State threads) : Prop :=
  Stands config state ∧ state.stage = .beginning ∧ state.capture.captureHolder = none

/-- Another thread returns from `finish`, or from the drop of its session. -/
theorem releases (beyond : threads < thread) (joined : Joined config .beginning thread session finish state) :
    Leads step (Unheld config) state := by
  obtain ⟨stands, isStage, events, point⟩ := joined
  obtain ⟨later, stepped, free⟩ : ∃ later, Capture.step state.capture (.tearRelease thread) = some later ∧
      later.captureHolder = none := by
    simp only [Capture.step, point]
    exact ⟨_, rfl, by split <;> rfl⟩
  have stays : state.stage.after state.capture (.tearRelease thread) = state.stage := by
    cases thread with
    | zero => cases beyond
    | succ thread => rfl
  have may : mayCall threads state.stage (some (thread, .finish)) = true :=
    mayCall_other beyond _ rfl
  have moved : step state (.capture (.tearRelease thread)) = some { state with capture := later } := by
    rw [step, call?, if_pos may, stepped, Option.map_some, stays]
  exact stands.after moved (fun _ advances => by cases advances) fun stands => .here ⟨stands, isStage, free⟩

/-- Another thread finishes the session that it owns. -/
theorem Begun.ends (begun : Begun config thread state) (beyond : threads < thread) :
    Leads step (Unheld config) state := by
  obtain ⟨stands, isStage, holder, point, session, owned⟩ := begun
  have free := stands.slot_beginning isStage holder (by rw [point]; rfl)
  exact (stands.finishes isStage (mayCall_other beyond _ rfl) point owned free).bind
    fun _ joined => releases beyond joined

/-- Another thread that has the capture lock can give it back. -/
theorem Stands.gives (stands : Stands config state) (isStage : state.stage = .beginning) (beyond : threads < thread)
    (holder : state.capture.captureHolder = some thread) : Leads step (Unheld config) state := by
  have mayFinish : mayCall threads .beginning (some (thread, .finish)) = true :=
    mayCall_other beyond _ rfl
  have mayBegin : mayCall threads .beginning (some (thread, .begin)) = true :=
    mayCall_other beyond _ rfl
  rcases stands.roles.holder thread holder with inside | owns
  · exact (stands.begins isStage mayBegin inside).bind fun _ begun => begun.ends beyond
  · obtain ⟨session, owned⟩ := Option.ne_none_iff_exists'.mp owns
    have hosts := stands.roles.other thread beyond
    cases point : state.capture.pcs thread with
    | idle => exact Begun.ends ⟨stands, isStage, holder, point, session, owned⟩ beyond
    | tearing => exact (stands.clears isStage mayFinish point).bind fun _ joined => releases beyond joined
    | joining => exact (stands.joins isStage mayFinish point).bind fun _ joined => releases beyond joined
    | joined session finish events => exact releases beyond ⟨stands, isStage, events, point⟩
    | senderCleared =>
      have stepped : Capture.step state.capture (.clearProbeSenderGlobal thread) =
          some { state.capture.goto thread .idle with
            globalProbeSender := state.capture.globalProbeSender.map fun _ => none } := by
        simp only [Capture.step, point]
      exact stands.call stepped (mayCall_other beyond _ rfl) rfl fun stands =>
        Begun.ends ⟨stands, isStage, holder, goto_pcs state.capture thread _, session, owned⟩ beyond
    | captureLocked | counterReset | slotLocked | installed =>
      exact (stands.begins isStage mayBegin (by rw [point]; rfl)).bind fun _ begun => begun.ends beyond
    | _ =>
      rw [point] at hosts
      cases hosts

/-- The test thread's `begin` returns. -/
theorem Begun.opens (begun : Begun config 0 state) :
    Leads step (fun next => Stands config next ∧ next.stage = .running 0 0) state := by
  obtain ⟨stands, isStage, -, point, session, owned⟩ := begun
  have stepped : step state .begun = some { state with stage := .running 0 0 } := by
    simp only [step, isStage, owned, point]
  exact stands.after stepped (fun _ advances => by cases advances) fun stands => .here ⟨stands, rfl⟩

theorem Unheld.opens (unheld : Unheld config state) :
    Leads step (fun next => Stands config next ∧ next.stage = .running 0 0) state := by
  obtain ⟨stands, isStage, free⟩ := unheld
  have idle : state.capture.pcs 0 = .idle := by
    refine (stands.roles.beginning isStage).1.resolve_right fun inside => ?_
    have holder := stands.proper.sound.locks.capture 0 (.inr inside)
    rw [free] at holder
    cases holder
  have stepped : Capture.step state.capture (.beginLock 0) =
      some { state.capture.goto 0 .captureLocked with captureHolder := some 0 } := by
    simp only [Capture.step, idle, free]
  refine stands.call stepped (by rw [isStage]; rfl) rfl fun stands => ?_
  have inside := congrArg Capture.beginning (goto_pcs state.capture 0 .captureLocked)
  exact (stands.begins isStage rfl inside).bind fun _ begun => begun.opens

/-- `begin` returns, whatever sessions are under way. -/
theorem Stands.opens (stands : Stands config state) (isStage : state.stage = .beginning) :
    Leads step (fun next => Stands config next ∧ next.stage = .running 0 0) state := by
  cases holder : state.capture.captureHolder with
  | none => exact Unheld.opens ⟨stands, isStage, holder⟩
  | some thread =>
    rcases Nat.lt_or_ge threads thread with beyond | within
    · exact (stands.gives isStage beyond holder).bind fun _ unheld => unheld.opens
    · cases thread with
      | zero =>
        rcases stands.roles.holder 0 holder with inside | owns
        · exact (stands.begins isStage rfl inside).bind fun _ begun => begun.opens
        · obtain ⟨session, owned⟩ := Option.ne_none_iff_exists'.mp owns
          refine Begun.opens ⟨stands, isStage, holder, ?_, session, owned⟩
          refine (stands.roles.beginning isStage).1.resolve_right fun inside => ?_
          exact owns (stands.proper.sound.locks.opening 0 inside)
      | succ worker =>
        have idle := (stands.roles.beginning isStage).2 ⟨worker, within⟩
        have unowned := (stands.roles.worker ⟨worker, within⟩).2
        rcases stands.roles.holder _ holder with inside | owns
        · rw [show state.capture.pcs (worker + 1) = .idle from idle] at inside
          cases inside
        · exact absurd unowned owns

/-! ## The effects of the workers -/

/-- All workers run, and no emission has the slot lock. -/
structure Steady (config : Config (Fin threads)) (joined : ℕ) (state : State threads) : Prop where
  stands : Stands config state
  stage : state.stage = .running threads joined
  free : state.capture.slotHolder = none

/-- A worker in `emit`. -/
theorem mayCall_worker (worker : Fin threads) (spawned joined : ℕ) :
    mayCall threads (.running spawned joined) (some (tid worker, .emit)) = true := by
  rw [tid, mayCall, if_pos worker.2]
  rfl

/-- While the workers run, the test thread's session is open. -/
theorem Stands.sender {spawned joined : ℕ} (stands : Stands config state)
    (isStage : state.stage = .running spawned joined) :
    state.capture.pcs 0 = .idle ∧ ∃ session, state.capture.sessions 0 = some session ∧
      state.capture.sessionSender = some (some session) := by
  obtain ⟨sound, atStage⟩ := stands.proper
  rw [isStage] at atStage
  obtain ⟨⟨session, owns, idle⟩, -⟩ := atStage
  exact ⟨idle, session, owns.1, (owns.sender sound (by rw [idle]; rfl)).1⟩

/-- Only an emission of a worker has the slot lock then. -/
theorem Stands.slot_running {spawned joined : ℕ} (stands : Stands config state)
    (isStage : state.stage = .running spawned joined) (held : state.capture.slotHolder = some thread) :
    ∃ (worker : Fin threads) (event : ProbeEvent), thread = tid worker ∧
      state.capture.pcs (tid worker) = .emitLocked event := by
  obtain ⟨idle, session, owned, -⟩ := stands.sender isStage
  have holder := stands.proper.sound.locks.holds (.inr owned)
  have holds := (stands.proper.sound.locks.slot thread).mpr held
  have apart : thread ≠ 0 := by
    rintro rfl
    rw [idle] at holds
    cases holds
  obtain ⟨event, point⟩ := (slot_cases stands.proper.sound.locks holder holds).resolve_left apart
  have within : ¬ threads < thread := by
    intro beyond
    have hosts := stands.roles.other thread beyond
    rw [point] at hosts
    cases hosts
  obtain ⟨worker, rfl⟩ := Nat.exists_eq_succ_of_ne_zero apart
  exact ⟨⟨worker, Nat.le_of_not_lt within⟩, event, rfl, point⟩

/-- An emission that has the slot lock is completed. -/
theorem Stands.sends {spawned joined : ℕ} {worker : Fin threads} {event : ProbeEvent} (stands : Stands config state)
    (isStage : state.stage = .running spawned joined) (point : state.capture.pcs (tid worker) = .emitLocked event)
    (onward : ∀ next, Stands config next → next.stage = .running spawned joined → next.capture.slotHolder = none →
      Leads step post next) : Leads step post state := by
  obtain ⟨-, session, -, sender⟩ := stands.sender isStage
  have stepped : Capture.step state.capture (.emitSend (tid worker)) = some { state.capture.goto (tid worker) .idle with
      slotHolder := none
      channels := Function.update state.capture.channels session ((state.capture.channels session).send event) } := by
    simp only [Capture.step, point, sender]
  exact stands.call stepped (isStage ▸ mayCall_worker worker spawned joined) rfl fun stands =>
    onward _ stands isStage rfl

/-- The workers that are left are spawned. -/
theorem Stands.spawns {spawned joined : ℕ} (stands : Stands config state)
    (isStage : state.stage = .running spawned joined) (free : state.capture.slotHolder = none) :
    Leads step (Steady config joined) state := by
  have within := (stands.roles.running _ _ isStage).2
  induction left : threads - spawned generalizing state spawned with
  | zero =>
    obtain rfl : spawned = threads := by omega
    exact .here ⟨stands, isStage, free⟩
  | succ left ih =>
    have stepped : step state .spawn = some { state with stage := .running (spawned + 1) joined } := by
      simp only [step, isStage, if_pos (show spawned < threads by omega)]
    refine stands.after stepped (fun _ advances => by cases advances) fun stands => ?_
    exact ih stands rfl free (by omega) (by omega)

/-- Where the workers run, the test settles. -/
theorem Stands.settles {spawned joined : ℕ} (stands : Stands config state)
    (isStage : state.stage = .running spawned joined) : Leads step (Steady config joined) state := by
  cases held : state.capture.slotHolder with
  | none => exact stands.spawns isStage held
  | some thread =>
    obtain ⟨worker, event, rfl, point⟩ := stands.slot_running isStage held
    exact stands.sends isStage point fun next stands isStage free => stands.spawns isStage free

section Effects

variable {config' : Config (Fin threads)} {joined : ℕ} {worker : Fin threads} {event : ProbeEvent}

/-- The last two steps of an emission. -/
theorem Steady.emits (steady : Steady config joined state)
    (coarse : (lockPrograms probeThreadId).step config (.advance worker ()) = some config')
    (point : state.capture.pcs (tid worker) = .emitSession event) : Leads step (Steady config' joined) state := by
  obtain ⟨-, session, -, sender⟩ := steady.stands.sender steady.stage
  have stepped : Capture.step state.capture (.emitSlotLock (tid worker)) =
      some { (state.capture.goto (tid worker) (.emitLocked event)).record (.emitted (tid worker) event) with
        slotHolder := some (tid worker) } := by
    simp only [Capture.step, point, sender, steady.free]
  have moved : step state (.capture (.emitSlotLock (tid worker))) = some { state with
      capture := { (state.capture.goto (tid worker) (.emitLocked event)).record (.emitted (tid worker) event) with
        slotHolder := some (tid worker) } } := by
    rw [step, call?, if_pos (steady.stage ▸ mayCall_worker worker threads joined), stepped]
    rfl
  refine steady.stands.advance coarse (.emitted worker) moved fun stands => ?_
  exact stands.sends steady.stage (goto_pcs state.capture _ _) fun next stands isStage free =>
    .here ⟨stands, isStage, free⟩

/-- The last three steps of an emission. -/
theorem Steady.checks (steady : Steady config joined state)
    (coarse : (lockPrograms probeThreadId).step config (.advance worker ()) = some config')
    (point : state.capture.pcs (tid worker) = .emitGlobal event) : Leads step (Steady config' joined) state := by
  have stepped : Capture.step state.capture (.emitCheckGlobal (tid worker)) =
      some (state.capture.goto (tid worker) (.emitSession event)) := by
    have noGlobal := steady.stands.proper.sound.noLegacy.2.1
    simp only [Capture.step, point]
  exact steady.stands.call stepped (steady.stage ▸ mayCall_worker worker threads joined) rfl
    fun stands => Steady.emits ⟨stands, steady.stage, steady.free⟩ coarse (goto_pcs ..)

/-- The call of a worker that is idle. -/
theorem Steady.works (steady : Steady config joined state) (point : state.capture.pcs (tid worker) = .idle) :
    step state (.work worker) = state.perform worker (state.program worker) := by
  rw [step, steady.stage]
  exact if_pos ⟨worker.2, point⟩

theorem perform_silent {effect : Effect} (silent : ∀ event, effect ≠ .emit event) (rest : effect.Reply → ThreadM Unit) :
    state.perform worker (.call effect rest) =
      (World.answer probeThreadId ⟨state.holders, []⟩ worker effect).map fun (reply, world) =>
        { state with
          holders := world.holders
          program := Function.update state.program worker (rest reply) } := by
  cases effect with
  | emit event => exact absurd rfl (silent event)
  | _ => rfl

/-- The next effect of an idle worker. -/
theorem Steady.performs (steady : Steady config joined state)
    (coarse : (lockPrograms probeThreadId).step config (.advance worker ()) = some config')
    (point : state.capture.pcs (tid worker) = .idle) : Leads step (Steady config' joined) state := by
  have idle := steady.works point
  have view : config = VerifyTest.view state := steady.stands.view.symm
  obtain ⟨process, operation, value, program, same, -⟩ | ⟨process, choice, effect, rest, reply, shared, same, running,
    answered, -⟩ := System.step_cases coarse
  · cases same
  · cases same
    have here : state.program worker = .call effect rest := by
      rw [view] at running
      change unsent (state.capture.pcs (tid worker)) _ = _ at running
      rwa [point] at running
    rw [here] at idle
    by_cases emits : ∃ event, effect = .emit event
    · obtain ⟨event, rfl⟩ := emits
      have noSink := steady.stands.proper.sound.noLegacy.1 (tid worker)
      have started : Capture.step state.capture (.emitStart (tid worker) event) =
          some (state.capture.goto (tid worker) (.emitGlobal event)) := by
        simp only [Capture.step, point, noSink]
      rw [State.perform, started] at idle
      refine steady.stands.after idle (fun other advances => ?_) fun stands =>
        Steady.checks ⟨stands, steady.stage, steady.free⟩ coarse (goto_pcs ..)
      cases advances with
      | performed running' silent =>
        cases here.symm.trans running'
        exact silent event rfl
    · have silent := not_exists.mp emits
      rw [view] at answered
      have answered' := answer_trace silent answered []
      rw [perform_silent silent] at idle
      rw [answered'] at idle
      exact steady.stands.advance coarse (.performed here silent) idle fun stands =>
        .here ⟨stands, steady.stage, steady.free⟩

/-- Every effect of the workers' threads is a run of the test. -/
theorem Steady.realizes {action : System.Action (Fin threads) Empty Unit} (steady : Steady config joined state)
    (coarse : (lockPrograms probeThreadId).step config action = some config') :
    Leads step (Steady config' joined) state := by
  cases action with
  | start process operation => cases operation
  | advance worker choice =>
    have emitting := (steady.stands.roles.worker worker).1
    cases point : state.capture.pcs (tid worker) with
    | idle => exact steady.performs coarse point
    | emitGlobal event => exact steady.checks coarse point
    | emitSession event => exact steady.emits coarse point
    | emitLocked event =>
      have held := (steady.stands.proper.sound.locks.slot (tid worker)).mp (by rw [point]; rfl)
      rw [steady.free] at held
      cases held
    | _ =>
      rw [point] at emitting
      cases emitting

end Effects

/-! ## The end -/

/-- The test thread has joined its collector, and returns from `finish`. -/
theorem Joined.returns (returning : Joined config .finishing 0 session true state) :
    Leads step (fun next => next.stage = .finished config.shared.trace) state := by
  obtain ⟨stands, isStage, events, point⟩ := returning
  obtain ⟨later, stepped⟩ : ∃ later, Capture.step state.capture (.tearRelease 0) = some later := by
    simp only [Capture.step, point]
    exact ⟨_, rfl⟩
  have moved : step state (.capture (.tearRelease 0)) =
      some { state with capture := later, stage := .finished events } := by
    rw [step, call?, if_pos (by rw [isStage]; rfl), stepped, Option.map_some]
    simp only [TestStage.after, point]
  refine stands.after moved (fun _ advances => by cases advances) fun stands => .here ?_
  have whole : events = Capture.emissions later.log := stands.proper.atStage.1
  rw [← stands.view]
  exact congrArg TestStage.finished whole

/-- `finish` returns. -/
theorem Stands.closes (stands : Stands config state) (isStage : state.stage = .finishing) :
    Leads step (fun next => next.stage = .finished config.shared.trace) state := by
  have atStage := stands.proper.atStage
  rw [isStage] at atStage
  obtain ⟨⟨session, closing⟩, done⟩ := atStage
  cases closing with
  | entered owns point =>
    rcases point with point | point
    · have holder := stands.proper.sound.locks.holds (.inr owns.1)
      have free := stands.slot_idle (fun worker => (isDone_iff.mp (done worker)).2) (by rw [point]; nofun) holder
        (by rw [point]; rfl)
      exact (stands.finishes isStage rfl point owns.1 free).bind fun _ joined => joined.returns
    · exact (stands.clears isStage rfl point).bind fun _ joined => joined.returns
  | cleared closed whole point =>
    rcases point with point | ⟨events, point⟩
    · exact (stands.joins isStage rfl point).bind fun _ joined => joined.returns
    · exact Joined.returns ⟨stands, isStage, events, point⟩

/-- The workers that are left are joined. -/
theorem Stands.joinsWorkers {joined : ℕ} (stands : Stands config state)
    (isStage : state.stage = .running threads joined) (done : ∀ worker, state.isDone worker = true) :
    Leads step (fun next => next.stage = .finished config.shared.trace) state := by
  have within := (stands.roles.running _ _ isStage).1
  induction left : threads - joined generalizing state joined with
  | zero =>
    obtain rfl : joined = threads := by omega
    have stepped : step state .finish = some { state with stage := .finishing } := by
      simp only [step, isStage, if_true]
    exact stands.after stepped (fun _ advances => by cases advances) fun stands => stands.closes rfl
  | succ left ih =>
    have stepped : step state .join = some { state with stage := .running threads (joined + 1) } := by
      simp only [step, isStage, dif_pos (show joined < threads by omega), done, and_self, if_true]
    refine stands.after stepped (fun _ advances => by cases advances) fun stands => ?_
    exact ih stands rfl done (by omega) (by omega)

/-- A worker whose thread is done, is done. -/
theorem Steady.done {joined : ℕ} (steady : Steady config joined state) (finished : config.Finished)
    (worker : Fin threads) : state.isDone worker = true := by
  obtain ⟨value, ended⟩ := finished worker
  rw [← steady.stands.view] at ended
  change unsent (state.capture.pcs (tid worker)) (state.program worker) = _ at ended
  have emitting := (steady.stands.roles.worker worker).1
  cases point : state.capture.pcs (tid worker) with
  | idle =>
    rw [point] at ended
    exact isDone_iff.mpr ⟨⟨value, ended⟩, point⟩
  | emitLocked event =>
    have held := (steady.stands.proper.sound.locks.slot (tid worker)).mp (by rw [point]; rfl)
    rw [steady.free] at held
    cases held
  | emitGlobal | emitSession =>
    rw [point] at ended
    cases ended
  | _ =>
    rw [point] at emitting
    cases emitting

/-- From where the workers run, what their threads can still do is done. -/
theorem Stands.runs {spawned joined : ℕ} (stands : Stands config state)
    (isStage : state.stage = .running spawned joined)
    {schedule : List (System.Action (Fin threads) Empty Unit)} {final : Config (Fin threads)}
    (reached : run? (lockPrograms probeThreadId).step config schedule = some final) (finished : final.Finished) :
    Leads step (fun next => next.stage = .finished final.shared.trace) state := by
  refine (stands.settles isStage).bind fun steady isSteady => ?_
  refine (run?_realized (fun _ _ _ _ steady coarse => Steady.realizes steady coarse) isSteady reached).bind ?_
  exact fun last isSteady => isSteady.stands.joinsWorkers isSteady.stage (isSteady.done finished)

/-- Threads that are done take no step. -/
theorem run_finished {schedule : List (System.Action (Fin threads) Empty Unit)} {final : Config (Fin threads)}
    (finished : config.Finished) (reached : run? (lockPrograms probeThreadId).step config schedule = some final) :
    final = config := by
  cases schedule with
  | nil => exact (Option.some.inj reached).symm
  | cons action rest =>
    obtain ⟨next, stepped, -⟩ := Option.bind_eq_some_iff.mp reached
    obtain ⟨process, operation, value, program, -, -, started, -⟩ |
      ⟨worker, choice, effect, next', reply, shared, -, running, -, -⟩ := System.step_cases stepped
    · cases started
    · obtain ⟨value, ended⟩ := finished worker
      rw [running] at ended
      cases ended

/-- What the workers can still do as threads with instrumented locks, the test can still do. -/
theorem Stands.realizes (stands : Stands config state)
    {schedule : List (System.Action (Fin threads) Empty Unit)} {final : Config (Fin threads)}
    (reached : run? (lockPrograms probeThreadId).step config schedule = some final) (finished : final.Finished) :
    Leads step (fun next => next.stage = .finished final.shared.trace) state := by
  have atStage := stands.proper.atStage
  cases isStage : state.stage with
  | beginning => exact (stands.opens isStage).bind fun _ opened => opened.1.runs opened.2 reached finished
  | running spawned joined => exact stands.runs isStage reached finished
  | finishing =>
    rw [isStage] at atStage
    obtain rfl := run_finished (stands.view ▸ finished_view atStage.2) reached
    exact stands.closes isStage
  | finished events =>
    rw [isStage] at atStage
    obtain rfl := run_finished (stands.view ▸ finished_view atStage.2) reached
    refine .here ?_
    rw [isStage, ← stands.view]
    exact congrArg TestStage.finished atStage.1

end Settling

/-- A run of threads that are done is captured by a test. -/
theorem captured_of_run {test : Test} {schedule : List (System.Action (Fin test.threads) Empty Unit)}
    {final : Config (Fin test.threads)}
    (reached : run? (lockPrograms probeThreadId).step (initially test.commands) schedule = some final)
    (finished : final.Finished) : test.Captured final.shared.trace :=
  (stands_of_run (run?_nil test.initial)).realizes reached finished

/-- **A test ends as its functions do.** From every state that a test can reach, whatever calls and sessions are under
way, the vectors that `finish` can still return are the traces that its functions can still end with, as threads with
instrumented locks whose emissions are one step each. -/
theorem ends_iff_functions_end {test : Test} {actions : List (Action test.threads)} {state : State test.threads}
    (reached : run? step test.initial actions = some state) (events : List ProbeEvent) :
    Leads step (fun last => last.stage = .finished events) state ↔
      Leads (lockPrograms probeThreadId).step (fun final => final.Finished ∧ final.shared.trace = events)
        (view state) := by
  have stands := stands_of_run reached
  constructor
  · rintro ⟨more, last, onward, ended⟩
    exact finished_of_run stands.proper onward ended
  · rintro ⟨schedule, final, onward, finished, rfl⟩
    exact stands.realizes onward finished

/-- A worker that locks a tracked mutex. -/
def single : Test where
  threads := 1
  valid := by decide
  commands _ := [.acquire .lock "m"]
  tracked := by
    intro worker access resource acquires
    obtain ⟨rfl, -⟩ := Command.acquire.inj (List.mem_singleton.mp acquires)
    rfl
  targetName := "single"
  expected := some .clean
  config := ⟨500, true, "."⟩

/-- The test thread waits for the session of another thread, which is being torn down. -/
def otherFirst : List (Action 1) :=
  [.capture (.beginLock 2), .capture (.beginReset 2), .capture (.beginSlotLock 2), .capture (.beginInstall 2),
    .capture (.beginSpawn 2), .capture (.tearLock 2 false)]

theorem ends_iff_functions_end_single : ∃ state, run? step single.initial otherFirst = some state ∧
    Leads step (fun last => last.stage = .finished [.lockAcquired 0 "m", .lockReleased 0 "m"]) state := by
  have reached : run? step single.initial otherFirst = some _ := rfl
  have ends := ends_iff_functions_end reached [.lockAcquired 0 "m", .lockReleased 0 "m"]
  refine ⟨_, reached, ends.mpr ⟨List.replicate 5 (.advance (0 : Fin 1) ()), _, rfl, ?_, rfl⟩⟩
  exact Fin.forall_fin_one.mpr ⟨(), rfl⟩

end Laplace.Soundness.VerifyTest
