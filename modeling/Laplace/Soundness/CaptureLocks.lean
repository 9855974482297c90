import Laplace.Model.CaptureSession

/-! # Lock discipline of capture sessions

What each atomic step can do is said once, as `Transition`; every invariant is proved from it. The
first one is the lock discipline: the capture lock belongs to the one thread that is inside `begin`
or owns a session, the slot lock to the one thread inside a slot section. Most other steps move one
thread aside from all of this, and one lemma covers them.
-/

namespace Laplace.Soundness.Capture

open Model Model.Capture

/-! ## Transitions -/

/-- What each action can do, with the guards under which it does it. -/
inductive Transition (state : State) : Action → State → Prop where
  | beginLock {thread : Tid} (point : state.pcs thread = .idle) (free : state.captureHolder = none) :
      Transition state (.beginLock thread)
        { state.goto thread .captureLocked with captureHolder := some thread }
  | beginReset {thread : Tid} (point : state.pcs thread = .captureLocked) :
      Transition state (.beginReset thread)
        { state.goto thread .counterReset with nextImplicitThreadId := 0 }
  | beginSlotLock {thread : Tid} (point : state.pcs thread = .counterReset)
      (free : state.slotHolder = none) :
      Transition state (.beginSlotLock thread)
        { state.goto thread (.slotLocked state.nextSession) with
          sessionSender := some (getOrInit state.sessionSender)
          slotHolder := some thread
          nextSession := state.nextSession + 1 }
  | beginInstall {thread : Tid} {session : Session} (point : state.pcs thread = .slotLocked session) :
      Transition state (.beginInstall thread)
        { (state.goto thread (.installed session)).record (.installed session) with
          sessionSender := some (some session)
          slotHolder := none }
  | beginSpawn {thread : Tid} {session : Session} (point : state.pcs thread = .installed session) :
      Transition state (.beginSpawn thread)
        { state.goto thread .idle with
          channels := Function.update state.channels session
            { state.channels session with receiver := .running [] }
          sessions := Function.update state.sessions thread (some session) }
  | beginSpawnFailed {thread : Tid} {session : Session} (point : state.pcs thread = .installed session) :
      Transition state (.beginSpawnFailed thread)
        { (state.goto thread .idle).record (.abandoned session) with
          captureHolder := none
          channels := Function.update state.channels session
            { state.channels session with receiver := .dropped } }
  | tearLock {thread : Tid} {session : Session} {finish : Bool} (point : state.pcs thread = .idle)
      (owned : state.sessions thread = some session) (free : state.slotHolder = none) :
      Transition state (.tearLock thread finish)
        { state.goto thread (.tearing session finish) with slotHolder := some thread }
  | tearClear {thread : Tid} {session : Session} {finish : Bool}
      (point : state.pcs thread = .tearing session finish) :
      Transition state (.tearClear thread)
        { (state.goto thread (.joining session finish)).record (.cleared session) with
          sessionSender := some none
          slotHolder := none }
  | tearJoin {thread : Tid} {session : Session} {finish : Bool} {events : List ProbeEvent}
      (point : state.pcs thread = .joining session finish)
      (ended : (state.channels session).receiver = .finished events) :
      Transition state (.tearJoin thread) (state.goto thread (.joined session finish events))
  | tearFinish {thread : Tid} {session : Session} {events : List ProbeEvent}
      (point : state.pcs thread = .joined session true events) :
      Transition state (.tearRelease thread)
        (State.record { state.goto thread .idle with
          captureHolder := none
          sessions := Function.update state.sessions thread none } (.returned session events))
  | tearDrop {thread : Tid} {session : Session} {events : List ProbeEvent}
      (point : state.pcs thread = .joined session false events) :
      Transition state (.tearRelease thread)
        { state.goto thread .idle with
          captureHolder := none
          sessions := Function.update state.sessions thread none }
  | emitLegacy {thread : Tid} {event : ProbeEvent} {sink : Legacy} (point : state.pcs thread = .idle)
      (sender : state.probeSender thread = some sink) :
      Transition state (.emitStart thread event)
        { state with legacyDelivered := state.legacyDelivered ++ [(sink, event)] }
  | emitStart {thread : Tid} {event : ProbeEvent} (point : state.pcs thread = .idle) :
      Transition state (.emitStart thread event) (state.goto thread (.emitGlobal event))
  | emitGlobalLegacy {thread : Tid} {event : ProbeEvent} {sink : Legacy}
      (point : state.pcs thread = .emitGlobal event)
      (sender : state.globalProbeSender = some (some sink)) :
      Transition state (.emitCheckGlobal thread)
        { state.goto thread .idle with legacyDelivered := state.legacyDelivered ++ [(sink, event)] }
  | emitCheckGlobal {thread : Tid} {event : ProbeEvent} (point : state.pcs thread = .emitGlobal event) :
      Transition state (.emitCheckGlobal thread) (state.goto thread (.emitSession event))
  | emitSlotMissing {thread : Tid} {event : ProbeEvent} (point : state.pcs thread = .emitSession event) :
      Transition state (.emitSlotMissing thread) (state.goto thread .idle)
  | emitSlotLock {thread : Tid} {event : ProbeEvent} (point : state.pcs thread = .emitSession event)
      (free : state.slotHolder = none) :
      Transition state (.emitSlotLock thread)
        { (state.goto thread (.emitLocked event)).record (.emitted thread event) with
          slotHolder := some thread }
  | emitSend {thread : Tid} {event : ProbeEvent} {session : Session}
      (point : state.pcs thread = .emitLocked event) (sender : state.sessionSender = some (some session)) :
      Transition state (.emitSend thread)
        { state.goto thread .idle with
          slotHolder := none
          channels := Function.update state.channels session ((state.channels session).send event) }
  | emitDiscard {thread : Tid} {event : ProbeEvent} (point : state.pcs thread = .emitLocked event)
      (sender : ∀ session, state.sessionSender ≠ some (some session)) :
      Transition state (.emitSend thread) { state.goto thread .idle with slotHolder := none }
  | collect {session : Session} {event : ProbeEvent} {rest collected : List ProbeEvent}
      (ready : state.channels session = ⟨event :: rest, .running collected⟩) :
      Transition state (.collect session)
        { state with
          channels := Function.update state.channels session ⟨rest, .running (collected ++ [event])⟩ }
  | collectEnd {session : Session} {collected : List ProbeEvent}
      (gone : state.sessionSender ≠ some (some session))
      (ready : state.channels session = ⟨[], .running collected⟩) :
      Transition state (.collectEnd session)
        { state with channels := Function.update state.channels session ⟨[], .finished collected⟩ }
  | setProbeSender {thread : Tid} {sink : Legacy} (point : state.pcs thread = .idle) :
      Transition state (.setProbeSender thread sink)
        { state.goto thread (.senderStored sink) with
          probeSender := Function.update state.probeSender thread (some sink) }
  | setProbeSenderReset {thread : Tid} {sink : Legacy} (point : state.pcs thread = .senderStored sink) :
      Transition state (.setProbeSenderReset thread)
        { state.goto thread (.senderReset sink) with nextImplicitThreadId := 0 }
  | setProbeSenderGlobal {thread : Tid} {sink : Legacy} (point : state.pcs thread = .senderReset sink) :
      Transition state (.setProbeSenderGlobal thread)
        { state.goto thread .idle with globalProbeSender := some (some sink) }
  | clearProbeSender {thread : Tid} (point : state.pcs thread = .idle) :
      Transition state (.clearProbeSender thread)
        { state.goto thread .senderCleared with
          probeSender := Function.update state.probeSender thread none }
  | clearProbeSenderGlobal {thread : Tid} (point : state.pcs thread = .senderCleared) :
      Transition state (.clearProbeSenderGlobal thread)
        { state.goto thread .idle with
          globalProbeSender := state.globalProbeSender.map fun _ => none }

theorem step_transition {state next : State} {action : Action} (stepped : step state action = some next) :
    Transition state action next := by
  cases action
  all_goals
    simp only [step] at stepped
  case tearJoin thread =>
    split at stepped
    next session finish point =>
      split at stepped
      next events ended =>
        obtain rfl := Option.some.inj stepped
        exact .tearJoin point ended
      next => cases stepped
    next => cases stepped
  case tearRelease thread =>
    split at stepped
    next session finish events point =>
      obtain rfl := Option.some.inj stepped
      cases finish with
      | true => exact .tearFinish point
      | false => exact .tearDrop point
    next => cases stepped
  case collectEnd session =>
    split at stepped
    next => cases stepped
    next gone =>
      split at stepped
      next collected ready =>
        obtain rfl := Option.some.inj stepped
        exact .collectEnd gone ready
      next => cases stepped
  case emitSend thread =>
    split at stepped
    next event session point sender =>
      obtain rfl := Option.some.inj stepped
      exact .emitSend point sender
    next event point other =>
      obtain rfl := Option.some.inj stepped
      exact .emitDiscard point other
    next => cases stepped
  all_goals split at stepped
  all_goals first
    | (obtain rfl := Option.some.inj stepped; constructor <;> assumption)
    | cases stepped

/-! ## Lock discipline -/

/-- The thread is inside a critical section of the slot's mutex. -/
def holdsSlot : Pc → Bool
  | .slotLocked _ | .tearing .. | .emitLocked _ => true
  | _ => false

/-- The thread is inside `begin`, past the capture lock. -/
def beginning : Pc → Bool
  | .captureLocked | .counterReset | .slotLocked _ | .installed _ => true
  | _ => false

/-- The session whose `tear_down` the thread is running. -/
def ending? : Pc → Option Session
  | .tearing session _ | .joining session _ | .joined session .. => some session
  | _ => none

structure Locks (state : State) : Prop where
  /-- Only the holder of the capture lock is inside `begin` or owns a session. -/
  capture : ∀ thread, (state.sessions thread ≠ none ∨ beginning (state.pcs thread) = true) →
    state.captureHolder = some thread
  /-- `begin` runs without a session of its own thread. -/
  opening : ∀ thread, beginning (state.pcs thread) = true → state.sessions thread = none
  /-- `tear_down` runs on the thread's own session. -/
  closing : ∀ thread session, ending? (state.pcs thread) = some session → state.sessions thread = some session
  slot : ∀ thread, holdsSlot (state.pcs thread) = true ↔ state.slotHolder = some thread

theorem locks_initial : Locks State.initial := by
  constructor <;> simp [State.initial, beginning, holdsSlot, ending?]

section Discipline

variable {state next : State} {thread : Tid} {pc : Pc}

/-- One thread moves: only its own control point, its session and its locks are to be checked. -/
theorem Locks.move (locks : Locks state) (pcs : next.pcs = Function.update state.pcs thread pc)
    (sessions : ∀ other, other ≠ thread → next.sessions other = state.sessions other)
    (captureKept : ∀ other, other ≠ thread → state.captureHolder = some other →
      next.captureHolder = some other)
    (slotKept : ∀ other, other ≠ thread → (next.slotHolder = some other ↔ state.slotHolder = some other))
    (capture : next.sessions thread ≠ none ∨ beginning pc = true → next.captureHolder = some thread)
    (opening : beginning pc = true → next.sessions thread = none)
    (closing : ∀ session, ending? pc = some session → next.sessions thread = some session)
    (slot : holdsSlot pc = true ↔ next.slotHolder = some thread) : Locks next := by
  have own : next.pcs thread = pc := by rw [pcs, Function.update_self]
  have others : ∀ other, other ≠ thread → next.pcs other = state.pcs other := by
    intro other different
    rw [pcs, Function.update_of_ne different]
  refine ⟨?_, ?_, ?_, ?_⟩
  · intro other inside
    by_cases same : other = thread
    · rw [same, own] at inside
      rw [same]
      exact capture inside
    · rw [sessions other same, others other same] at inside
      exact captureKept other same (locks.capture other inside)
  · intro other inside
    by_cases same : other = thread
    · rw [same, own] at inside
      rw [same]
      exact opening inside
    · rw [others other same] at inside
      rw [sessions other same]
      exact locks.opening other inside
  · intro other session ends
    by_cases same : other = thread
    · rw [same, own] at ends
      rw [same]
      exact closing session ends
    · rw [others other same] at ends
      rw [sessions other same]
      exact locks.closing other session ends
  · intro other
    by_cases same : other = thread
    · rw [same, own]
      exact slot
    · rw [others other same, slotKept other same]
      exact locks.slot other

/-- The capture lock of a thread that is inside `begin` or owns a session. -/
theorem Locks.holds (locks : Locks state) {session : Session}
    (inside : beginning (state.pcs thread) = true ∨ state.sessions thread = some session) :
    state.captureHolder = some thread := by
  rcases inside with begins | owned
  · exact locks.capture thread (Or.inr begins)
  · exact locks.capture thread (Or.inl (by rw [owned]; exact Option.some_ne_none session))

/-- A lock that the thread holds is held by no other. -/
theorem held_by_other {holder : Option Tid} {other : Tid} (holds : holder = some thread)
    (different : other ≠ thread) : holder ≠ some other := by
  rw [holds]
  exact fun same => different (Option.some.inj same).symm

/-- Neither taking nor giving back the slot lock concerns another thread. -/
theorem slot_taken (free : state.slotHolder = none) (other : Tid) (different : other ≠ thread) :
    some thread = some other ↔ state.slotHolder = some other := by
  rw [free]
  exact ⟨fun same => absurd (Option.some.inj same).symm different, nofun⟩

theorem slot_given (holds : state.slotHolder = some thread) (other : Tid) (different : other ≠ thread) :
    none = some other ↔ state.slotHolder = some other :=
  ⟨nofun, fun same => absurd same (held_by_other holds different)⟩

/-- A thread that stays outside the slot's section. -/
theorem Locks.apart (locks : Locks state) (outside : holdsSlot (state.pcs thread) = false)
    (still : holdsSlot pc = false) : holdsSlot pc = true ↔ state.slotHolder = some thread := by
  rw [← locks.slot thread, outside, still]

end Discipline

/-- Control points at which a thread holds no lock and runs no part of a session. -/
def quiet : Pc → Bool
  | .idle | .emitGlobal _ | .emitSession _ | .senderStored _ | .senderReset _ | .senderCleared => true
  | _ => false

theorem quiet_roles {pc : Pc} (silent : quiet pc = true) :
    beginning pc = false ∧ ending? pc = none ∧ holdsSlot pc = false := by
  cases pc <;> first | exact ⟨rfl, rfl, rfl⟩ | cases silent

/-- A thread moves between such control points and nothing of the sessions changes. -/
structure Aside (state next : State) (thread : Tid) (pc : Pc) : Prop where
  source : quiet (state.pcs thread) = true
  target : quiet pc = true
  pcs : next.pcs = Function.update state.pcs thread pc
  captureHolder : next.captureHolder = state.captureHolder
  sessions : next.sessions = state.sessions
  sender : next.sessionSender = state.sessionSender
  holder : next.slotHolder = state.slotHolder
  channels : next.channels = state.channels
  allocation : next.nextSession = state.nextSession
  log : next.log = state.log

/-- An action concerns a session, or it moves one thread aside from them all. -/
theorem Transition.aside {state next : State} {action : Action} (moved : Transition state action next)
    (concerns : match action with
      | .emitStart .. | .emitCheckGlobal _ | .emitSlotMissing _ | .setProbeSender .. | .setProbeSenderReset _
      | .setProbeSenderGlobal _ | .clearProbeSender _ | .clearProbeSenderGlobal _ => True
      | _ => False) : ∃ thread pc, Aside state next thread pc := by
  cases moved with
  | @emitLegacy thread event sink point sender =>
    refine ⟨thread, .idle, by rw [point]; rfl, rfl, ?_, rfl, rfl, rfl, rfl, rfl, rfl, rfl⟩
    rw [← point, Function.update_eq_self]
  | @emitStart thread event point =>
    exact ⟨thread, _, by rw [point]; rfl, rfl, rfl, rfl, rfl, rfl, rfl, rfl, rfl, rfl⟩
  | @emitGlobalLegacy thread event sink point sender =>
    exact ⟨thread, _, by rw [point]; rfl, rfl, rfl, rfl, rfl, rfl, rfl, rfl, rfl, rfl⟩
  | @emitCheckGlobal thread event point | @emitSlotMissing thread event point =>
    exact ⟨thread, _, by rw [point]; rfl, rfl, rfl, rfl, rfl, rfl, rfl, rfl, rfl, rfl⟩
  | @setProbeSender thread sink point | @setProbeSenderReset thread sink point
  | @setProbeSenderGlobal thread sink point =>
    exact ⟨thread, _, by rw [point]; rfl, rfl, rfl, rfl, rfl, rfl, rfl, rfl, rfl, rfl⟩
  | @clearProbeSender thread point | @clearProbeSenderGlobal thread point =>
    exact ⟨thread, _, by rw [point]; rfl, rfl, rfl, rfl, rfl, rfl, rfl, rfl, rfl, rfl⟩
  | _ => cases concerns

theorem Locks.aside {state next : State} {thread : Tid} {pc : Pc} (locks : Locks state)
    (aside : Aside state next thread pc) : Locks next := by
  obtain ⟨begins, ends, holds⟩ := quiet_roles aside.target
  have outside := (quiet_roles aside.source).2.2
  have unheld : state.slotHolder ≠ some thread := by
    intro held
    rw [(locks.slot thread).mpr held] at outside
    cases outside
  refine locks.move aside.pcs ?_ ?_ ?_ ?_ ?_ ?_ ?_
  · exact fun other _ => congrFun aside.sessions other
  · exact fun other _ held => aside.captureHolder.trans held
  · exact fun other _ => by rw [aside.holder]
  · intro inside
    rw [aside.captureHolder]
    rw [aside.sessions, begins] at inside
    exact locks.capture thread (inside.imp_right nofun)
  · rw [begins]; exact nofun
  · rw [ends]; exact nofun
  · rw [holds, aside.holder]
    exact ⟨nofun, fun held => absurd held unheld⟩

theorem locks_step {state next : State} {action : Action} (locks : Locks state)
    (stepped : step state action = some next) : Locks next := by
  have moved := step_transition stepped
  cases moved with
  | @beginLock thread point free =>
    have unowned : state.sessions thread = none := by
      by_contra owned
      rw [locks.capture thread (Or.inl owned)] at free
      cases free
    refine locks.move rfl (fun _ _ => rfl) ?_ (fun _ _ => Iff.rfl) (fun _ => rfl) (fun _ => unowned) nofun ?_
    · intro other _ held
      rw [free] at held
      cases held
    · exact locks.apart (by rw [point]; rfl) rfl
  | @beginReset thread point =>
    have inside : beginning (state.pcs thread) = true := by rw [point]; rfl
    refine locks.move rfl (fun _ _ => rfl) (fun _ _ held => held) (fun _ _ => Iff.rfl)
      (fun _ => locks.capture thread (Or.inr inside)) (fun _ => locks.opening thread inside) nofun ?_
    exact locks.apart (by rw [point]; rfl) rfl
  | @beginSlotLock thread point free =>
    have inside : beginning (state.pcs thread) = true := by rw [point]; rfl
    exact locks.move rfl (fun _ _ => rfl) (fun _ _ held => held) (slot_taken free)
      (fun _ => locks.capture thread (Or.inr inside)) (fun _ => locks.opening thread inside) nofun
      ⟨fun _ => rfl, fun _ => rfl⟩
  | @beginInstall thread session point =>
    have inside : beginning (state.pcs thread) = true := by rw [point]; rfl
    have held := (locks.slot thread).mp (by rw [point]; rfl)
    exact locks.move rfl (fun _ _ => rfl) (fun _ _ held => held) (slot_given held)
      (fun _ => locks.capture thread (Or.inr inside)) (fun _ => locks.opening thread inside) nofun
      ⟨nofun, nofun⟩
  | @beginSpawn thread session point =>
    have inside : beginning (state.pcs thread) = true := by rw [point]; rfl
    refine locks.move rfl (fun _ different => Function.update_of_ne different _ _) (fun _ _ held => held)
      (fun _ _ => Iff.rfl) (fun _ => locks.capture thread (Or.inr inside)) nofun nofun ?_
    exact locks.apart (by rw [point]; rfl) rfl
  | @beginSpawnFailed thread session point =>
    have inside : beginning (state.pcs thread) = true := by rw [point]; rfl
    have held := locks.capture thread (Or.inr inside)
    refine locks.move rfl (fun _ _ => rfl)
      (fun other different taken => absurd taken (held_by_other held different)) (fun _ _ => Iff.rfl) ?_ nofun
      nofun ?_
    · rintro (owned | begins)
      · exact absurd (locks.opening thread inside) owned
      · cases begins
    · exact locks.apart (by rw [point]; rfl) rfl
  | @tearLock thread session finish point owned free =>
    refine locks.move rfl (fun _ _ => rfl) (fun _ _ held => held) (slot_taken free)
      (fun _ => locks.holds (Or.inr owned)) nofun ?_ ⟨fun _ => rfl, fun _ => rfl⟩
    intro other ends
    rw [← ends]
    exact owned
  | @tearClear thread session finish point =>
    have owned := locks.closing thread session (by rw [point]; rfl)
    have held := (locks.slot thread).mp (by rw [point]; rfl)
    refine locks.move rfl (fun _ _ => rfl) (fun _ _ held => held) (slot_given held)
      (fun _ => locks.holds (Or.inr owned)) nofun ?_ ⟨nofun, nofun⟩
    intro other ends
    rw [← ends]
    exact owned
  | @tearJoin thread session finish events point ended =>
    have owned := locks.closing thread session (by rw [point]; rfl)
    refine locks.move rfl (fun _ _ => rfl) (fun _ _ held => held) (fun _ _ => Iff.rfl)
      (fun _ => locks.holds (Or.inr owned)) nofun ?_ ?_
    · intro other ends
      rw [← ends]
      exact owned
    · exact locks.apart (by rw [point]; rfl) rfl
  | @tearFinish thread session events point | @tearDrop thread session events point =>
    have owned := locks.closing thread session (by rw [point]; rfl)
    have held := locks.holds (Or.inr owned)
    refine locks.move rfl (fun _ different => Function.update_of_ne different _ _)
      (fun other different taken => absurd taken (held_by_other held different)) (fun _ _ => Iff.rfl) ?_ nofun
      nofun ?_
    · rintro (owned | begins)
      · exact absurd (Function.update_self ..) owned
      · cases begins
    · exact locks.apart (by rw [point]; rfl) rfl
  | @emitSlotLock thread event point free =>
    refine locks.move rfl (fun _ _ => rfl) (fun _ _ held => held) (slot_taken free) ?_ nofun nofun
      ⟨fun _ => rfl, fun _ => rfl⟩
    exact fun inside => locks.capture thread (inside.imp_right nofun)
  | @emitSend thread event session point sender =>
    have held := (locks.slot thread).mp (by rw [point]; rfl)
    refine locks.move rfl (fun _ _ => rfl) (fun _ _ held => held) (slot_given held) ?_ nofun nofun
      ⟨nofun, nofun⟩
    exact fun inside => locks.capture thread (inside.imp_right nofun)
  | @emitDiscard thread event point sender =>
    have held := (locks.slot thread).mp (by rw [point]; rfl)
    refine locks.move rfl (fun _ _ => rfl) (fun _ _ held => held) (slot_given held) ?_ nofun nofun
      ⟨nofun, nofun⟩
    exact fun inside => locks.capture thread (inside.imp_right nofun)
  | collect ready | collectEnd gone ready => exact ⟨locks.capture, locks.opening, locks.closing, locks.slot⟩
  | _ =>
    obtain ⟨thread, pc, aside⟩ := Transition.aside (step_transition stepped) trivial
    exact locks.aside aside

end Laplace.Soundness.Capture
