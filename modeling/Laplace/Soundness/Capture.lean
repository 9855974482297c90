import Laplace.Soundness.CaptureFlow

/-! # Exactly-once session capture

The lock discipline and the data flow hold in every interleaving. With the names of the sessions,
each installed once, and the absence of legacy sinks they say what a returned vector is: the
emissions of its session's window, in slot-lock order.
-/

namespace Laplace.Soundness.Capture

open Model Model.Capture

/-! ## Sessions of the log and of the state -/

/-- The session whose sink is installed after these entries, if any. -/
def activeSession (log : List Entry) : Option Session :=
  log.foldl (fun active entry => match entry with
    | .installed session => some session
    | .abandoned _ | .cleared _ => none
    | _ => active) none

/-- The session is between the installation of its sender and its teardown. -/
def Active (state : State) (session : Session) : Prop :=
  ∃ thread, state.pcs thread = .installed session ∨
    (state.sessions thread = some session ∧ sinkCleared (state.pcs thread) = false)

theorem activeSession_snoc (log : List Entry) (entry : Entry) :
    activeSession (log ++ [entry]) = match entry with
      | .installed session => some session
      | .abandoned _ | .cleared _ => none
      | _ => activeSession log := by
  simp only [activeSession, List.foldl_append, List.foldl_cons, List.foldl_nil]

/-- Sessions are installed under fresh names, and the log's account of them is the state's. -/
structure Names (state : State) : Prop where
  installed : ∀ session, .installed session ∈ state.log → session < state.nextSession
  reserved : ∀ thread session, state.pcs thread = .slotLocked session →
    session < state.nextSession ∧ .installed session ∉ state.log
  once : ∀ session, state.log.count (.installed session) ≤ 1
  active : ∀ session, activeSession state.log = some session → Active state session

theorem names_initial : Names State.initial := by
  constructor <;> simp [State.initial, activeSession]

section Naming

variable {state next : State} {thread : Tid}

/-- A step that installs and reserves no session: what is left is the active one. -/
theorem Names.grow {entries : List Entry} (names : Names state) (log : next.log = state.log ++ entries)
    (absent : ∀ session, .installed session ∉ entries) (allocation : next.nextSession = state.nextSession)
    (reserved : ∀ thread session, next.pcs thread = .slotLocked session →
      state.pcs thread = .slotLocked session)
    (active : ∀ session, activeSession next.log = some session → Active next session) : Names next := by
  refine ⟨?_, ?_, ?_, active⟩
  · intro session member
    rw [log] at member
    rw [allocation]
    exact names.installed session ((List.mem_append.mp member).resolve_right (absent session))
  · intro other session point
    obtain ⟨below, missing⟩ := names.reserved other session (reserved other session point)
    rw [allocation, log]
    exact ⟨below, fun member => (List.mem_append.mp member).elim missing (absent session)⟩
  · intro session
    rw [log, List.count_append, List.count_eq_zero.mpr (absent session)]
    exact names.once session

/-- Entries that say nothing about the slot leave the active session as it is. -/
theorem activeSession_append {log entries : List Entry}
    (silent : ∀ entry ∈ entries, changesSink entry = false) :
    activeSession (log ++ entries) = activeSession log := by
  induction entries using List.reverseRecOn with
  | nil => rw [List.append_nil]
  | append_singleton earlier entry ih =>
    rw [← List.append_assoc, activeSession_snoc]
    have quietEntry := silent entry (List.mem_append_right _ (List.mem_singleton_self _))
    have before := ih fun other member => silent other (List.mem_append_left _ member)
    cases entry with
    | installed | abandoned | cleared => cases quietEntry
    | emitted | returned => exact before

/-- A step that logs nothing about the slot, reserves no session and ends no activity. -/
theorem Names.keep {entries : List Entry} (names : Names state) (log : next.log = state.log ++ entries)
    (silent : ∀ entry ∈ entries, changesSink entry = false)
    (allocation : next.nextSession = state.nextSession)
    (reserved : ∀ thread session, next.pcs thread = .slotLocked session →
      state.pcs thread = .slotLocked session)
    (active : ∀ session, Active state session → Active next session) : Names next := by
  refine names.grow log (fun session member => ?_) allocation reserved fun session holds => ?_
  · cases silent _ member
  · rw [log, activeSession_append silent] at holds
    exact active session (names.active session holds)

theorem Names.still (names : Names state) (log : next.log = state.log)
    (allocation : next.nextSession = state.nextSession)
    (reserved : ∀ thread session, next.pcs thread = .slotLocked session →
      state.pcs thread = .slotLocked session)
    (active : ∀ session, Active state session → Active next session) : Names next :=
  names.keep (log.trans (List.append_nil _).symm) (List.forall_mem_nil _) allocation reserved active

/-- The owner of an active session has not moved past its teardown. -/
theorem Active.move {pc : Pc} {session : Session} (active : Active state session)
    (pcs : next.pcs = Function.update state.pcs thread pc)
    (sessions : ∀ session, state.sessions thread = some session → next.sessions thread = some session)
    (others : ∀ other, other ≠ thread → next.sessions other = state.sessions other)
    (uncleared : sinkCleared pc = false)
    (spawned : state.pcs thread = .installed session → next.sessions thread = some session) :
    Active next session := by
  have own : next.pcs thread = pc := by rw [pcs, Function.update_self]
  obtain ⟨owner, holds⟩ := active
  by_cases same : owner = thread
  · subst same
    refine ⟨owner, Or.inr ⟨?_, by rw [own]; exact uncleared⟩⟩
    rcases holds with starting | ⟨owned, -⟩
    · exact spawned starting
    · exact sessions session owned
  · refine ⟨owner, ?_⟩
    rw [pcs, Function.update_of_ne same, others owner same]
    exact holds

/-- A thread outside `begin` moves, and keeps its session. -/
theorem Active.stay {pc : Pc} {session : Session} (active : Active state session)
    (point : ∀ session, state.pcs thread ≠ .installed session)
    (pcs : next.pcs = Function.update state.pcs thread pc) (sessions : next.sessions = state.sessions)
    (uncleared : sinkCleared pc = false) : Active next session :=
  active.move pcs (fun _ owned => by rw [sessions]; exact owned) (fun other _ => congrFun sessions other)
    uncleared (fun starting => absurd starting (point session))

/-- A thread whose session is not the active one moves. -/
theorem Active.elsewhere {pc : Pc} {session : Session} (active : Active state session)
    (cleared : sinkCleared (state.pcs thread) = true) (pcs : next.pcs = Function.update state.pcs thread pc)
    (others : ∀ other, other ≠ thread → next.sessions other = state.sessions other) :
    Active next session := by
  obtain ⟨owner, holds⟩ := active
  have different : owner ≠ thread := by
    rintro rfl
    rcases holds with starting | ⟨-, uncleared⟩
    · rw [starting] at cleared
      cases cleared
    · rw [cleared] at uncleared
      cases uncleared
  refine ⟨owner, ?_⟩
  rw [pcs, Function.update_of_ne different, others owner different]
  exact holds

/-- Moving elsewhere, the thread reserves no session. -/
theorem unreserved {pc : Pc} (free : ∀ session, pc ≠ .slotLocked session) (other : Tid) (session : Session)
    (point : Function.update state.pcs thread pc other = .slotLocked session) :
    state.pcs other = .slotLocked session := by
  by_cases same : other = thread
  · rw [same, Function.update_self] at point
    exact absurd point (free session)
  · rw [Function.update_of_ne same] at point
    exact point

theorem names_beginSlotLock (names : Names state) (point : state.pcs thread = .counterReset) :
    Names { state.goto thread (.slotLocked state.nextSession) with
      sessionSender := some (getOrInit state.sessionSender)
      slotHolder := some thread
      nextSession := state.nextSession + 1 } := by
  refine ⟨?_, ?_, names.once, ?_⟩
  · exact fun session member => Nat.lt_succ_of_lt (names.installed session member)
  · intro other session there
    change Function.update state.pcs thread _ other = _ at there
    by_cases same : other = thread
    · rw [same, Function.update_self] at there
      obtain rfl := Pc.slotLocked.inj there
      exact ⟨Nat.lt_succ_self _, fun member => Nat.lt_irrefl _ (names.installed _ member)⟩
    · rw [Function.update_of_ne same] at there
      obtain ⟨below, absent⟩ := names.reserved other session there
      exact ⟨Nat.lt_succ_of_lt below, absent⟩
  · intro session holds
    exact (names.active session holds).stay (by rw [point]; exact nofun) rfl rfl rfl

theorem names_beginInstall {session : Session} (locks : Locks state) (names : Names state)
    (point : state.pcs thread = .slotLocked session) :
    Names { (state.goto thread (.installed session)).record (.installed session) with
      sessionSender := some (some session)
      slotHolder := none } := by
  obtain ⟨below, absent⟩ := names.reserved thread session point
  refine ⟨?_, ?_, ?_, ?_⟩
  · intro other member
    rcases List.mem_append.mp member with old | new
    · exact names.installed other old
    · obtain rfl := Entry.installed.inj (List.mem_singleton.mp new)
      exact below
  · intro other reserved there
    have elsewhere : ∀ other, Pc.installed session ≠ .slotLocked other := nofun
    have before := unreserved elsewhere other reserved there
    -- two threads in the slot's section are the same one
    have equal : other = thread := by
      have first := (locks.slot other).mp (by rw [before]; rfl)
      have second := (locks.slot thread).mp (by rw [point]; rfl)
      exact Option.some.inj (first.symm.trans second)
    change Function.update state.pcs thread _ other = _ at there
    rw [equal, Function.update_self] at there
    cases there
  · intro other
    change (state.log ++ [Entry.installed session]).count (.installed other) ≤ 1
    rw [List.count_append]
    by_cases same : other = session
    · have before : state.log.count (.installed other) = 0 := List.count_eq_zero.mpr (same ▸ absent)
      have here : [Entry.installed session].count (.installed other) ≤ 1 := List.count_le_length
      omega
    · have missing : Entry.installed other ∉ [Entry.installed session] := fun member =>
        same (Entry.installed.inj (List.mem_singleton.mp member))
      rw [List.count_eq_zero.mpr missing]
      exact names.once other
  · intro other holds
    change activeSession (state.log ++ [.installed session]) = some other at holds
    rw [activeSession_snoc] at holds
    obtain rfl := Option.some.inj holds
    exact ⟨thread, Or.inl (Function.update_self ..)⟩

/-- After `abandoned` and `cleared` no session is active. -/
theorem Names.close {entry : Entry} {pc : Pc} (names : Names state)
    (closes : (∃ session, entry = .abandoned session) ∨ ∃ session, entry = .cleared session)
    (log : next.log = state.log ++ [entry]) (allocation : next.nextSession = state.nextSession)
    (pcs : next.pcs = Function.update state.pcs thread pc) (free : ∀ session, pc ≠ .slotLocked session) :
    Names next := by
  have inactive : activeSession next.log = none := by
    rw [log, activeSession_snoc]
    rcases closes with ⟨closed, rfl⟩ | ⟨closed, rfl⟩ <;> rfl
  refine names.grow log (fun session member => ?_) allocation ?_ fun session holds => ?_
  · rcases closes with ⟨closed, rfl⟩ | ⟨closed, rfl⟩ <;> cases List.mem_singleton.mp member
  · rw [pcs]
    exact unreserved free
  · rw [inactive] at holds
    cases holds

theorem names_aside {pc : Pc} (names : Names state) (aside : Aside state next thread pc) : Names next := by
  have outside := quiet_bystander aside.source
  have free : ∀ session, pc ≠ .slotLocked session := by
    rintro session rfl
    cases aside.target
  have apart : ∀ session, state.pcs thread ≠ .installed session := by
    intro session starting
    rw [starting] at outside
    cases outside
  refine names.still aside.log aside.allocation ?_ fun _ active =>
    active.stay apart aside.pcs aside.sessions (bystander_uncleared (quiet_bystander aside.target))
  rw [aside.pcs]
  exact unreserved free

theorem names_step {action : Action} (locks : Locks state) (names : Names state)
    (stepped : step state action = some next) : Names next := by
  cases step_transition stepped with
  | beginLock point free =>
    exact names.still rfl rfl (unreserved nofun)
      fun _ active => active.stay (by rw [point]; exact nofun) rfl rfl rfl
  | beginReset point =>
    exact names.still rfl rfl (unreserved nofun)
      fun _ active => active.stay (by rw [point]; exact nofun) rfl rfl rfl
  | beginSlotLock point free => exact names_beginSlotLock names point
  | beginInstall point => exact names_beginInstall locks names point
  | @beginSpawn thread session point =>
    obtain ⟨-, unowned⟩ := locks.of_beginning point rfl
    refine names.still rfl rfl (unreserved nofun) fun other active => ?_
    refine active.move rfl ?_ (fun _ different => Function.update_of_ne different _ _) rfl ?_
    · intro owned
      rw [unowned]
      exact nofun
    · intro starting
      obtain rfl := Pc.installed.inj (point.symm.trans starting)
      exact Function.update_self ..
  | @beginSpawnFailed thread session point =>
    exact names.close (Or.inl ⟨session, rfl⟩) rfl rfl rfl nofun
  | tearLock point owned free =>
    exact names.still rfl rfl (unreserved nofun)
      fun _ active => active.stay (by rw [point]; exact nofun) rfl rfl rfl
  | @tearClear thread session finish point => exact names.close (Or.inr ⟨session, rfl⟩) rfl rfl rfl nofun
  | tearJoin point ended =>
    exact names.still rfl rfl (unreserved nofun)
      fun _ active => active.elsewhere (by rw [point]; rfl) rfl (fun _ _ => rfl)
  | tearFinish point =>
    refine names.keep rfl (fun entry member => ?_) rfl (unreserved nofun)
      fun _ active => active.elsewhere (by rw [point]; rfl) rfl
        (fun _ different => Function.update_of_ne different _ _)
    rw [List.mem_singleton.mp member]
    rfl
  | tearDrop point =>
    exact names.still rfl rfl (unreserved nofun)
      fun _ active => active.elsewhere (by rw [point]; rfl) rfl
        (fun _ different => Function.update_of_ne different _ _)
  | emitSlotLock point free =>
    refine names.keep rfl (fun entry member => ?_) rfl (unreserved nofun)
      fun _ active => active.stay (by rw [point]; exact nofun) rfl rfl rfl
    rw [List.mem_singleton.mp member]
    rfl
  | emitSend point sender | emitDiscard point sender =>
    exact names.still rfl rfl (unreserved nofun)
      fun _ active => active.stay (by rw [point]; exact nofun) rfl rfl rfl
  | collect ready | collectEnd gone ready =>
    exact names.still rfl rfl (fun _ _ point => point) (fun _ active => active)
  | _ =>
    obtain ⟨thread, pc, aside⟩ := Transition.aside (step_transition stepped) trivial
    exact names_aside names aside

end Naming

/-- No legacy sink is installed, nor about to be, and none has received an event. -/
def NoLegacy (state : State) : Prop :=
  (∀ thread, state.probeSender thread = none) ∧ (∀ sink, state.globalProbeSender ≠ some (some sink)) ∧
    (∀ thread sink, state.pcs thread ≠ .senderStored sink ∧ state.pcs thread ≠ .senderReset sink) ∧
    state.legacyDelivered = []

/-- A thread that installs no legacy sink moves. -/
theorem NoLegacy.move {state next : State} {thread : Tid} {pc : Pc} (holds : NoLegacy state)
    (pcs : next.pcs = Function.update state.pcs thread pc)
    (plain : ∀ sink, pc ≠ .senderStored sink ∧ pc ≠ .senderReset sink)
    (threads : ∀ other, next.probeSender other = none)
    (global : ∀ sink, next.globalProbeSender ≠ some (some sink))
    (delivered : next.legacyDelivered = state.legacyDelivered) : NoLegacy next := by
  refine ⟨threads, global, ?_, delivered.trans holds.2.2.2⟩
  intro other sink
  rw [pcs]
  by_cases same : other = thread
  · rw [same, Function.update_self]
    exact plain sink
  · rw [Function.update_of_ne same]
    exact holds.2.2.1 other sink

theorem noLegacy_step {state next : State} {action : Action} (modern : action.installsLegacy = false)
    (holds : NoLegacy state) (stepped : step state action = some next) : NoLegacy next := by
  obtain ⟨threads, global, points, delivered⟩ := holds
  have holds : NoLegacy state := ⟨threads, global, points, delivered⟩
  cases step_transition stepped with
  | collect ready | collectEnd gone ready => exact holds
  | emitLegacy point sender =>
    rw [threads] at sender
    cases sender
  | emitGlobalLegacy point sender => exact absurd sender (global _)
  | setProbeSender point => cases modern
  | setProbeSenderReset point => exact absurd point (points _ _).1
  | setProbeSenderGlobal point => exact absurd point (points _ _).2
  | @clearProbeSender thread point =>
    refine holds.move rfl (fun _ => ⟨nofun, nofun⟩) (fun other => ?_) global rfl
    change Function.update state.probeSender thread none other = none
    by_cases same : other = thread
    · rw [same, Function.update_self]
    · rw [Function.update_of_ne same, threads]
  | clearProbeSenderGlobal point =>
    refine holds.move rfl (fun _ => ⟨nofun, nofun⟩) threads (fun sink installed => ?_) rfl
    obtain ⟨old, -, absurd⟩ := Option.map_eq_some_iff.mp installed
    cases absurd
  | _ => exact holds.move rfl (fun _ => ⟨nofun, nofun⟩) threads global rfl

/-- What every reachable state satisfies. -/
structure Sound (state : State) : Prop where
  locks : Locks state
  flow : Flow state
  names : Names state
  noLegacy : NoLegacy state

theorem sound_reachable {actions : List Action} {final : State} (reached : run? State.initial actions = some final)
    (modern : ∀ action ∈ actions, action.installsLegacy = false) : Sound final := by
  refine Machine.run?_invariant Sound ?_ ?_ reached modern
  · exact ⟨locks_initial, flow_initial, names_initial, by simp [NoLegacy, State.initial]⟩
  · rintro state action next admitted ⟨locks, flow, names, noLegacy⟩ stepped
    exact ⟨locks_step locks stepped, flow_step locks flow stepped, names_step locks names stepped,
      noLegacy_step admitted noLegacy stepped⟩

/-! ## The result -/

theorem activeSession_of_silent {before window : List Entry} {session : Session}
    (silent : ∀ entry ∈ window, changesSink entry = false) :
    activeSession (before ++ .installed session :: window) = some session := by
  rw [List.append_cons, activeSession_append silent, activeSession_snoc]

/-- Inside a closed window its session is the active one. -/
theorem ClosedWindow.active {log before after window : List Entry} {session : Session} {entry : Entry}
    (split : log = before ++ .installed session :: window ++ .cleared session :: after)
    (silent : ∀ entry ∈ window, changesSink entry = false) {first second : List Entry}
    (position : log = first ++ entry :: second) (low : before.length < first.length)
    (high : first.length ≤ before.length + window.length) : activeSession first = some session := by
  let inside := first.length - before.length - 1
  have lead : first = before ++ .installed session :: window.take inside := by
    have glued : first ++ entry :: second = (before ++ .installed session :: window.take inside) ++
        (window.drop inside ++ .cleared session :: after) := by
      rw [← position, split]
      simp only [List.append_assoc, List.cons_append]
      rw [← List.append_assoc (window.take inside), List.take_append_drop]
    refine List.append_inj_left glued ?_
    simp only [List.length_append, List.length_cons, List.length_take, inside]
    omega
  rw [lead]
  exact activeSession_of_silent fun other member => silent other (List.mem_of_mem_take member)

/-- Every interleaving of begins, finishes, drops and emits captures exactly once. A session's sink stays
in the slot until its own teardown; its vector is the emissions of its window, in slot-lock order; and an
emission outside every active session lies outside the window of each returned vector. -/
theorem capture_exactly_once {actions : List Action} {final : State}
    (reached : run? State.initial actions = some final)
    (modern : ∀ action ∈ actions, action.installsLegacy = false) :
    (∀ first second, (final.sessions first ≠ none ∨ beginning (final.pcs first) = true) →
      (final.sessions second ≠ none ∨ beginning (final.pcs second) = true) → first = second) ∧
    (∀ session, Active final session → final.sessionSender = some (some session)) ∧
    (∀ session, activeSession final.log = some session ↔ Active final session) ∧
    (∀ session, final.log.count (.installed session) ≤ 1) ∧
    (∀ session events, .returned session events ∈ final.log →
      ∃ before window after, final.log = before ++ .installed session :: window ++ .cleared session :: after ∧
        (∀ entry ∈ window, changesSink entry = false) ∧ events = emissions window ∧
        ∀ earlier thread event later, final.log = earlier ++ .emitted thread event :: later →
          activeSession earlier = none →
            earlier.length < before.length ∨ before.length + window.length < earlier.length) ∧
    final.legacyDelivered = [] := by
  obtain ⟨locks, flow, names, noLegacy⟩ := sound_reachable reached modern
  have installed (session : Session) (active : Active final session) :
      ∃ received, Receives final session received := by
    obtain ⟨thread, point | ⟨owned, uncleared⟩⟩ := active
    · exact ⟨[], (flow.starting thread session point).2⟩
    · obtain ⟨collected, -, receives⟩ := flow.active thread session owned uncleared
      exact ⟨collected, receives⟩
  refine ⟨?_, ?_, ?_, names.once, ?_, noLegacy.2.2.2⟩
  · intro first second firstIn secondIn
    exact Option.some.inj ((locks.capture first firstIn).symm.trans (locks.capture second secondIn))
  · intro session active
    obtain ⟨received, receives⟩ := installed session active
    exact receives.1
  · intro session
    refine ⟨names.active session, fun active => ?_⟩
    obtain ⟨received, -, window, ⟨⟨before, same⟩, silent⟩, -⟩ := installed session active
    rw [same]
    exact activeSession_of_silent silent
  · intro session events member
    obtain ⟨window, ⟨⟨before, after, split⟩, silent⟩, same⟩ := flow.returned session events member
    refine ⟨before, window, after, split, silent, same, ?_⟩
    intro earlier thread event later position inactive
    by_contra inside
    rw [not_or, Nat.not_lt, Nat.not_lt] at inside
    rcases Nat.eq_or_lt_of_le inside.1 with first | inner
    · -- the entry at the window's opening is the installation, not an emission
      have glued : earlier ++ .emitted thread event :: later =
          before ++ .installed session :: (window ++ .cleared session :: after) := by
        rw [← position, split, List.append_assoc, List.cons_append]
      have tails := List.append_inj_right glued first.symm
      exact absurd (List.cons.inj tails).1 (by simp)
    · rw [ClosedWindow.active split silent position inner inside.2] at inactive
      exact absurd inactive (by simp)

/-- Thread 1 emits before thread 0's collector is spawned and again after the teardown; then thread 1
opens a session of its own and drops it. -/
def twoSessions : List Action :=
  [.beginLock 0, .beginReset 0, .beginSlotLock 0, .beginInstall 0, .emitStart 1 (.taskCompleted 1),
    .emitCheckGlobal 1, .emitSlotLock 1, .emitSend 1, .beginSpawn 0, .tearLock 0 true, .tearClear 0,
    .emitStart 1 (.taskCompleted 2), .emitCheckGlobal 1, .collect 0, .collectEnd 0, .emitSlotLock 1, .emitSend 1,
    .tearJoin 0, .tearRelease 0, .beginLock 1, .beginReset 1, .beginSlotLock 1, .beginInstall 1, .beginSpawn 1,
    .tearLock 1 false, .tearClear 1, .collectEnd 1, .tearJoin 1, .tearRelease 1]

theorem capture_exactly_once_twoSessions :
    ∃ final, run? State.initial twoSessions = some final ∧
      final.log = [.installed 0, .emitted 1 (.taskCompleted 1), .cleared 0, .emitted 1 (.taskCompleted 2),
        .returned 0 [.taskCompleted 1], .installed 1, .cleared 1] ∧
      final.legacyDelivered = [] ∧ ∀ session, final.log.count (.installed session) ≤ 1 := by
  have modern : ∀ action ∈ twoSessions, action.installsLegacy = false := by decide
  have result := capture_exactly_once rfl modern
  exact ⟨_, rfl, rfl, result.2.2.2.2.2, result.2.2.2.1⟩

end Laplace.Soundness.Capture
