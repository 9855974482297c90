import Laplace.Soundness.CaptureLocks

/-! # Data flow of capture sessions

While a session's sender is in the slot, the events its collector has received, the queued ones and
the one about to be sent are exactly the emissions since the installation; once the sender is cleared
they are the emissions of the closed window. A step of `begin` or `tear_down` belongs to the only
thread involved in sessions, so it has one thread to account for; the steps of `emit` and of the
collectors carry every account over.
-/

namespace Laplace.Soundness.Capture

open Model Model.Capture

/-! ## Windows of the log -/

/-- Log entries after which another sink, or none, is installed. -/
def changesSink : Entry → Bool
  | .installed _ | .abandoned _ | .cleared _ => true
  | _ => false

/-- The events whose `emit` took the slot lock, in that order. -/
def emissions (window : List Entry) : List ProbeEvent :=
  window.filterMap fun
    | .emitted _ event => some event
    | _ => none

/-- The session's sink is installed and nothing has touched the slot since. -/
def OpenWindow (log : List Entry) (session : Session) (window : List Entry) : Prop :=
  (∃ before, log = before ++ .installed session :: window) ∧ ∀ entry ∈ window, changesSink entry = false

/-- The session's sink was installed and later cleared, and nothing touched the slot in between. -/
def ClosedWindow (log : List Entry) (session : Session) (window : List Entry) : Prop :=
  (∃ before after, log = before ++ .installed session :: window ++ .cleared session :: after) ∧
    ∀ entry ∈ window, changesSink entry = false

theorem openWindow_installed (log : List Entry) (session : Session) :
    OpenWindow (log ++ [.installed session]) session [] :=
  ⟨⟨log, rfl⟩, fun _ member => absurd member List.not_mem_nil⟩

theorem OpenWindow.append {log : List Entry} {session : Session} {window : List Entry}
    (opened : OpenWindow log session window) {entries : List Entry}
    (silent : ∀ entry ∈ entries, changesSink entry = false) :
    OpenWindow (log ++ entries) session (window ++ entries) := by
  obtain ⟨⟨before, rfl⟩, quiet⟩ := opened
  refine ⟨⟨before, by simp only [List.append_assoc, List.cons_append]⟩, ?_⟩
  intro other member
  rcases List.mem_append.mp member with member | member
  · exact quiet other member
  · exact silent other member

theorem OpenWindow.close {log : List Entry} {session : Session} {window : List Entry}
    (opened : OpenWindow log session window) : ClosedWindow (log ++ [.cleared session]) session window := by
  obtain ⟨⟨before, rfl⟩, quiet⟩ := opened
  exact ⟨⟨before, [], rfl⟩, quiet⟩

theorem ClosedWindow.append {log : List Entry} {session : Session} {window : List Entry}
    (closed : ClosedWindow log session window) (rest : List Entry) :
    ClosedWindow (log ++ rest) session window := by
  obtain ⟨⟨before, after, rfl⟩, quiet⟩ := closed
  exact ⟨⟨before, after ++ rest, by simp only [List.append_assoc, List.cons_append]⟩, quiet⟩

theorem emissions_append (first second : List Entry) :
    emissions (first ++ second) = emissions first ++ emissions second := by
  simp only [emissions, List.filterMap_append]

/-! ## Data flow -/

/-- The thread has cleared its session's sink. -/
def sinkCleared : Pc → Bool
  | .joining .. | .joined .. => true
  | _ => false

/-- The event a thread is about to send under the slot lock. -/
def pendingOf : Pc → List ProbeEvent
  | .emitLocked event => [event]
  | _ => []

def pending (state : State) : List ProbeEvent :=
  match state.slotHolder with
  | some thread => pendingOf (state.pcs thread)
  | none => []

/-- The session's sender is in the slot, and `received`, its queue and the pending event are the
emissions since the installation. -/
def Receives (state : State) (session : Session) (received : List ProbeEvent) : Prop :=
  state.sessionSender = some (some session) ∧ ∃ window, OpenWindow state.log session window ∧
    received ++ (state.channels session).queue ++ pending state = emissions window

/-- The sender is cleared; the collector has received, or will receive, exactly the closed window. -/
def Drains (state : State) (session : Session) : Prop :=
  state.sessionSender ≠ some (some session) ∧ ∃ window, ClosedWindow state.log session window ∧
    ((∃ collected, (state.channels session).receiver = .running collected ∧
      collected ++ (state.channels session).queue = emissions window) ∨
    (state.channels session).receiver = .finished (emissions window))

/-- The vector is the emissions of the session's closed window. -/
def Captures (log : List Entry) (session : Session) (events : List ProbeEvent) : Prop :=
  ∃ window, ClosedWindow log session window ∧ events = emissions window

/-- A channel that no thread has used yet. -/
def Unused (channel : Channel) : Prop := channel.queue = [] ∧ channel.receiver = .unspawned

structure Flow (state : State) : Prop where
  fresh : ∀ session, state.nextSession ≤ session → Unused (state.channels session)
  allocated : ∀ session, state.sessionSender = some (some session) → session < state.nextSession
  reserved : ∀ thread session, state.pcs thread = .slotLocked session → session < state.nextSession ∧
    Unused (state.channels session) ∧ state.sessionSender ≠ some (some session)
  starting : ∀ thread session, state.pcs thread = .installed session →
    (state.channels session).receiver = .unspawned ∧ Receives state session []
  active : ∀ thread session, state.sessions thread = some session → sinkCleared (state.pcs thread) = false →
    ∃ collected, (state.channels session).receiver = .running collected ∧ Receives state session collected
  joining : ∀ thread session finish, state.pcs thread = .joining session finish →
    session < state.nextSession ∧ Drains state session
  joined : ∀ thread session finish events, state.pcs thread = .joined session finish events →
    Captures state.log session events
  returned : ∀ session events, .returned session events ∈ state.log → Captures state.log session events

theorem flow_initial : Flow State.initial := by
  constructor <;> simp [State.initial, Unused]

theorem Captures.append {log : List Entry} {session : Session} {events : List ProbeEvent}
    (captures : Captures log session events) (rest : List Entry) : Captures (log ++ rest) session events := by
  obtain ⟨window, closed, same⟩ := captures
  exact ⟨window, closed.append rest, same⟩

theorem getOrInit_eq_some (slot : Option (Option Session)) (session : Session) :
    getOrInit slot = some session ↔ slot = some (some session) := by
  cases slot <;> simp [getOrInit]

/-- A step that leaves the slot alone and moves only what it logs keeps the account. -/
theorem Receives.advance {state next : State} {session : Session} {received received' : List ProbeEvent}
    {entries : List Entry} (receives : Receives state session received)
    (sender : next.sessionSender = state.sessionSender) (log : next.log = state.log ++ entries)
    (silent : ∀ entry ∈ entries, changesSink entry = false)
    (moved : received' ++ (next.channels session).queue ++ pending next =
      received ++ (state.channels session).queue ++ pending state ++ emissions entries) :
    Receives next session received' := by
  obtain ⟨installed, window, opened, same⟩ := receives
  refine ⟨sender.trans installed, window ++ entries, log ▸ opened.append silent, ?_⟩
  rw [moved, same, emissions_append]

/-- The slot's section is the same one as before when its holder has not moved. -/
theorem pending_congr {state next : State} (holder : next.slotHolder = state.slotHolder)
    (pcs : ∀ thread, state.slotHolder = some thread → next.pcs thread = state.pcs thread) :
    pending next = pending state := by
  simp only [pending, holder]
  cases held : state.slotHolder with
  | none => rfl
  | some thread => simp only [pcs thread held]

/-- A step that touches neither slot, queue nor log keeps the account. -/
theorem Receives.frame {state next : State} {session : Session} {received : List ProbeEvent}
    (receives : Receives state session received) (sender : next.sessionSender = state.sessionSender)
    (log : next.log = state.log) (queue : (next.channels session).queue = (state.channels session).queue)
    (same : pending next = pending state) : Receives next session received := by
  refine receives.advance sender (log.trans (List.append_nil _).symm) (fun _ member => ?_) ?_
  · exact absurd member List.not_mem_nil
  · rw [queue, same, emissions, List.filterMap_nil, List.append_nil]

/-- What the account asks of one thread. -/
structure Part (state : State) (thread : Tid) (pc : Pc) : Prop where
  reserved : ∀ session, pc = .slotLocked session → session < state.nextSession ∧
    Unused (state.channels session) ∧ state.sessionSender ≠ some (some session)
  starting : ∀ session, pc = .installed session →
    (state.channels session).receiver = .unspawned ∧ Receives state session []
  active : ∀ session, state.sessions thread = some session → sinkCleared pc = false →
    ∃ collected, (state.channels session).receiver = .running collected ∧ Receives state session collected
  joining : ∀ session finish, pc = .joining session finish →
    session < state.nextSession ∧ Drains state session
  joined : ∀ session finish events, pc = .joined session finish events → Captures state.log session events

section Accounts

variable {state next : State} {thread : Tid} {pc : Pc}

/-- A thread outside `begin` that owns no session has nothing to account for. -/
theorem Part.of_uninvolved (unowned : state.sessions thread = none) (outside : beginning pc = false)
    (open' : ending? pc = none) : Part state thread pc := by
  refine ⟨?_, ?_, ?_, ?_, ?_⟩
  · rintro session rfl
    cases outside
  · rintro session rfl
    cases outside
  · intro session owned
    rw [unowned] at owned
    cases owned
  · rintro session finish rfl
    cases open'
  · rintro session finish events rfl
    cases open'

/-- Beside the thread that holds the capture lock, or is about to, no thread is involved. -/
theorem Locks.uninvolved (locks : Locks state) {other : Tid} (different : other ≠ thread)
    (held : ∀ holder, state.captureHolder = some holder → holder = thread) :
    state.sessions other = none ∧ beginning (state.pcs other) = false ∧ ending? (state.pcs other) = none := by
  have outside : ¬ (state.sessions other ≠ none ∨ beginning (state.pcs other) = true) :=
    fun inside => different (held other (locks.capture other inside))
  rw [not_or, not_not, Bool.not_eq_true] at outside
  refine ⟨outside.1, outside.2, ?_⟩
  cases ends : ending? (state.pcs other) with
  | none => rfl
  | some session =>
    have owned := locks.closing other session ends
    rw [outside.1] at owned
    cases owned

/-- A step of the one thread that is involved in sessions. -/
theorem Flow.of_part (locks : Locks state)
    (held : ∀ holder, state.captureHolder = some holder → holder = thread)
    (pcs : next.pcs = Function.update state.pcs thread pc)
    (sessions : ∀ other, other ≠ thread → next.sessions other = state.sessions other)
    (fresh : ∀ session, next.nextSession ≤ session → Unused (next.channels session))
    (allocated : ∀ session, next.sessionSender = some (some session) → session < next.nextSession)
    (returned : ∀ session events, .returned session events ∈ next.log → Captures next.log session events)
    (part : Part next thread pc) : Flow next := by
  have each : ∀ other, Part next other (next.pcs other) := by
    intro other
    by_cases same : other = thread
    · rw [same, pcs, Function.update_self]
      exact part
    · obtain ⟨unowned, outside, open'⟩ := locks.uninvolved same held
      rw [pcs, Function.update_of_ne same]
      exact Part.of_uninvolved ((sessions other same).trans unowned) outside open'
  exact ⟨fresh, allocated, fun other => (each other).reserved, fun other => (each other).starting,
    fun other => (each other).active, fun other => (each other).joining, fun other => (each other).joined,
    returned⟩

/-- The returned vectors stay what they are while other entries are logged. -/
theorem Flow.returned_append (flow : Flow state) {entry : Entry}
    (other : ∀ session events, entry ≠ .returned session events) (session : Session)
    (events : List ProbeEvent) (member : .returned session events ∈ state.log ++ [entry]) :
    Captures (state.log ++ [entry]) session events := by
  rcases List.mem_append.mp member with old | new
  · exact (flow.returned session events old).append _
  · exact absurd (List.mem_singleton.mp new).symm (other session events)

/-- An idle part of an owner's thread: only the session it owns is to be accounted for. -/
theorem Part.of_active {session : Session} {collected : List ProbeEvent}
    (owned : state.sessions thread = some session) (outside : beginning pc = false)
    (uncleared : sinkCleared pc = false) (running : (state.channels session).receiver = .running collected)
    (receives : Receives state session collected) : Part state thread pc := by
  refine ⟨?_, ?_, ?_, ?_, ?_⟩
  · rintro other rfl
    cases outside
  · rintro other rfl
    cases outside
  · intro other owner _
    obtain rfl := Option.some.inj (owned.symm.trans owner)
    exact ⟨collected, running, receives⟩
  · rintro other finish rfl
    cases uncleared
  · rintro other finish events rfl
    cases uncleared

theorem pending_free (free : state.slotHolder = none) : pending state = [] := by
  rw [pending, free]

theorem pending_held (held : state.slotHolder = some thread) : pending state = pendingOf (state.pcs thread) := by
  rw [pending, held]

/-- A thread that stays outside the slot's section does not change what is pending. -/
theorem Locks.pending_move (locks : Locks state) (outside : holdsSlot (state.pcs thread) = false)
    (holder : next.slotHolder = state.slotHolder) (pcs : next.pcs = Function.update state.pcs thread pc) :
    pending next = pending state := by
  refine pending_congr holder fun other held => ?_
  have different : other ≠ thread := by
    rintro rfl
    rw [(locks.slot other).mpr held] at outside
    cases outside
  rw [pcs, Function.update_of_ne different]

end Accounts

/-! ## One step of the account -/

section Steps

variable {state next : State} {thread : Tid}

/-- The thread of a `begin` step holds the capture lock and owns no session. -/
theorem Locks.of_beginning {pc : Pc} (locks : Locks state) (point : state.pcs thread = pc)
    (begins : beginning pc = true) :
    (∀ holder, state.captureHolder = some holder → holder = thread) ∧ state.sessions thread = none := by
  have inside : beginning (state.pcs thread) = true := by rw [point, begins]
  refine ⟨?_, locks.opening thread inside⟩
  intro holder held
  exact Option.some.inj (held.symm.trans (locks.capture thread (Or.inr inside)))

/-- The thread of a `tear_down` step holds the capture lock and owns the session. -/
theorem Locks.of_ending {pc : Pc} {session : Session} (locks : Locks state)
    (point : state.pcs thread = pc) (ends : ending? pc = some session) :
    (∀ holder, state.captureHolder = some holder → holder = thread) ∧ state.sessions thread = some session := by
  have owned := locks.closing thread session (by rw [point, ends])
  refine ⟨?_, owned⟩
  intro holder held
  exact Option.some.inj (held.symm.trans (locks.holds (Or.inr owned)))

/-- Taking the capture lock, and resetting the implicit ids under it. -/
theorem flow_opening {pc : Pc} (locks : Locks state) (flow : Flow state)
    (held : ∀ holder, state.captureHolder = some holder → holder = thread)
    (unowned : state.sessions thread = none) (pcs : next.pcs = Function.update state.pcs thread pc)
    (opening : pc = .captureLocked ∨ pc = .counterReset) (sessions : next.sessions = state.sessions)
    (sender : next.sessionSender = state.sessionSender) (channels : next.channels = state.channels)
    (allocation : next.nextSession = state.nextSession) (log : next.log = state.log) : Flow next := by
  refine Flow.of_part locks held pcs (fun other _ => congrFun sessions other) ?_ ?_ ?_ ?_
  · rw [allocation, channels]; exact flow.fresh
  · rw [allocation, sender]; exact flow.allocated
  · rw [log]; exact flow.returned
  · refine ⟨?_, ?_, ?_, ?_, ?_⟩
    · rintro session rfl
      rcases opening with absurd | absurd <;> cases absurd
    · rintro session rfl
      rcases opening with absurd | absurd <;> cases absurd
    · intro session owned
      rw [sessions, unowned] at owned
      cases owned
    · rintro session finish rfl
      rcases opening with absurd | absurd <;> cases absurd
    · rintro session finish events rfl
      rcases opening with absurd | absurd <;> cases absurd

theorem flow_beginSlotLock (locks : Locks state) (flow : Flow state)
    (point : state.pcs thread = .counterReset) :
    Flow { state.goto thread (.slotLocked state.nextSession) with
      sessionSender := some (getOrInit state.sessionSender)
      slotHolder := some thread
      nextSession := state.nextSession + 1 } := by
  obtain ⟨held, unowned⟩ := locks.of_beginning point rfl
  have present : ∀ session, some (getOrInit state.sessionSender) = some (some session) →
      session < state.nextSession := by
    intro session same
    exact flow.allocated session ((getOrInit_eq_some _ _).mp (Option.some.inj same))
  refine Flow.of_part locks held rfl (fun _ _ => rfl) ?_ ?_ flow.returned ?_
  · exact fun session above => flow.fresh session (Nat.le_of_succ_le above)
  · exact fun session same => Nat.lt_succ_of_lt (present session same)
  · refine ⟨?_, nofun, ?_, nofun, nofun⟩
    · rintro session ⟨⟩
      exact ⟨Nat.lt_succ_self _, flow.fresh _ (Nat.le_refl _), fun same => Nat.lt_irrefl _ (present _ same)⟩
    · intro session owned
      exact absurd (unowned.symm.trans owned) nofun

theorem flow_beginInstall {session : Session} (locks : Locks state) (flow : Flow state)
    (point : state.pcs thread = .slotLocked session) :
    Flow { (state.goto thread (.installed session)).record (.installed session) with
      sessionSender := some (some session)
      slotHolder := none } := by
  obtain ⟨held, unowned⟩ := locks.of_beginning point rfl
  obtain ⟨below, unused, -⟩ := flow.reserved thread session point
  refine Flow.of_part locks held rfl (fun _ _ => rfl) flow.fresh ?_ (flow.returned_append nofun) ?_
  · rintro other ⟨⟩
    exact below
  · refine ⟨nofun, ?_, ?_, nofun, nofun⟩
    · rintro other ⟨⟩
      refine ⟨unused.2, rfl, [], openWindow_installed state.log session, ?_⟩
      rw [pending_free rfl]
      exact congrArg (fun queue => [] ++ queue ++ []) unused.1
    · intro other owned
      exact absurd (unowned.symm.trans owned) nofun

/-- Only the session's own channel changes, and it was allocated before. -/
theorem Flow.fresh_update {session : Session} (flow : Flow state)
    (sender : state.sessionSender = some (some session)) (channel : Channel) (other : Session)
    (above : state.nextSession ≤ other) :
    Unused (Function.update state.channels session channel other) := by
  have below := flow.allocated session sender
  rw [Function.update_of_ne (Nat.ne_of_gt (Nat.lt_of_lt_of_le below above))]
  exact flow.fresh other above

theorem flow_beginSpawn {session : Session} (locks : Locks state) (flow : Flow state)
    (point : state.pcs thread = .installed session) :
    Flow { state.goto thread .idle with
      channels := Function.update state.channels session
        { state.channels session with receiver := .running [] }
      sessions := Function.update state.sessions thread (some session) } := by
  obtain ⟨held, unowned⟩ := locks.of_beginning point rfl
  obtain ⟨-, receives⟩ := flow.starting thread session point
  refine Flow.of_part locks held rfl (fun _ different => Function.update_of_ne different _ _)
    (flow.fresh_update receives.1 _) flow.allocated flow.returned ?_
  have spawned : Function.update state.channels session
      { state.channels session with receiver := .running [] } session =
        { state.channels session with receiver := .running [] } := Function.update_self ..
  have running := congrArg Channel.receiver spawned
  have queue := congrArg Channel.queue spawned
  refine Part.of_active (Function.update_self ..) rfl rfl running ?_
  exact receives.frame rfl rfl queue (locks.pending_move (by rw [point]; rfl) rfl rfl)

theorem flow_beginSpawnFailed {session : Session} (locks : Locks state) (flow : Flow state)
    (point : state.pcs thread = .installed session) :
    Flow { (state.goto thread .idle).record (.abandoned session) with
      captureHolder := none
      channels := Function.update state.channels session
        { state.channels session with receiver := .dropped } } := by
  obtain ⟨held, unowned⟩ := locks.of_beginning point rfl
  obtain ⟨-, receives⟩ := flow.starting thread session point
  exact Flow.of_part locks held rfl (fun _ _ => rfl) (flow.fresh_update receives.1 _) flow.allocated
    (flow.returned_append nofun) (Part.of_uninvolved unowned rfl rfl)

theorem flow_tearLock {session : Session} {finish : Bool} (locks : Locks state) (flow : Flow state)
    (point : state.pcs thread = .idle) (owned : state.sessions thread = some session)
    (free : state.slotHolder = none) :
    Flow { state.goto thread (.tearing session finish) with slotHolder := some thread } := by
  have held : ∀ holder, state.captureHolder = some holder → holder = thread := fun holder held =>
    Option.some.inj (held.symm.trans (locks.holds (Or.inr owned)))
  obtain ⟨collected, running, receives⟩ := flow.active thread session owned (by rw [point]; rfl)
  refine Flow.of_part locks held rfl (fun _ _ => rfl) flow.fresh flow.allocated flow.returned ?_
  refine Part.of_active owned rfl rfl running (receives.frame rfl rfl rfl ?_)
  rw [pending_free free, pending_held rfl]
  change pendingOf (Function.update state.pcs thread _ thread) = []
  rw [Function.update_self]
  rfl

theorem flow_tearClear {session : Session} {finish : Bool} (locks : Locks state) (flow : Flow state)
    (point : state.pcs thread = .tearing session finish) :
    Flow { (state.goto thread (.joining session finish)).record (.cleared session) with
      sessionSender := some none
      slotHolder := none } := by
  obtain ⟨held, owned⟩ := locks.of_ending point rfl
  obtain ⟨collected, running, sender, window, opened, same⟩ :=
    flow.active thread session owned (by rw [point]; rfl)
  refine Flow.of_part locks held rfl (fun _ _ => rfl) flow.fresh nofun (flow.returned_append nofun) ?_
  refine ⟨nofun, nofun, nofun, ?_, nofun⟩
  rintro other again ⟨⟩
  refine ⟨flow.allocated session sender, nofun, window, opened.close, Or.inl ⟨collected, running, ?_⟩⟩
  rw [pending_held ((locks.slot thread).mp (by rw [point]; rfl)), point] at same
  exact (List.append_nil _).symm.trans same

theorem flow_tearJoin {session : Session} {finish : Bool} {events : List ProbeEvent} (locks : Locks state)
    (flow : Flow state) (point : state.pcs thread = .joining session finish)
    (ended : (state.channels session).receiver = .finished events) :
    Flow (state.goto thread (.joined session finish events)) := by
  obtain ⟨held, owned⟩ := locks.of_ending point rfl
  obtain ⟨-, -, window, closed, account⟩ := flow.joining thread session finish point
  refine Flow.of_part locks held rfl (fun _ _ => rfl) flow.fresh flow.allocated flow.returned ?_
  refine ⟨nofun, nofun, nofun, nofun, ?_⟩
  rintro other again vector ⟨⟩
  rcases account with ⟨collected, running, -⟩ | finished
  · rw [running] at ended
    cases ended
  · rw [finished] at ended
    obtain rfl := Receiver.finished.inj ended
    exact ⟨window, closed, rfl⟩

theorem flow_tearRelease {session : Session} {finish : Bool} {events : List ProbeEvent}
    (locks : Locks state) (flow : Flow state) (point : state.pcs thread = .joined session finish events) :
    Flow { state.goto thread .idle with
        captureHolder := none
        sessions := Function.update state.sessions thread none } ∧
      Flow (State.record { state.goto thread .idle with
        captureHolder := none
        sessions := Function.update state.sessions thread none } (.returned session events)) := by
  obtain ⟨held, owned⟩ := locks.of_ending point rfl
  have captures := flow.joined thread session finish events point
  refine ⟨?_, ?_⟩
  · exact Flow.of_part locks held rfl (fun _ different => Function.update_of_ne different _ _) flow.fresh
      flow.allocated flow.returned (Part.of_uninvolved (Function.update_self ..) rfl rfl)
  · refine Flow.of_part locks held rfl (fun _ different => Function.update_of_ne different _ _) flow.fresh
      flow.allocated ?_ (Part.of_uninvolved (Function.update_self ..) rfl rfl)
    intro other vector member
    rcases List.mem_append.mp member with old | new
    · exact (flow.returned other vector old).append _
    · obtain ⟨rfl, rfl⟩ := Entry.returned.inj (List.mem_singleton.mp new)
      exact captures.append _

/-- Control points outside `begin` and `tear_down`. -/
def bystander (pc : Pc) : Bool := !beginning pc && (ending? pc).isNone

theorem bystander_uncleared {pc : Pc} (outside : bystander pc = true) : sinkCleared pc = false := by
  cases pc <;> first | rfl | cases outside

/-- A step of `emit` or of a collector: no thread enters or leaves a part of a session, the slot keeps
its sender, and each account is carried over. -/
theorem Flow.carry (flow : Flow state)
    (pcs : ∀ other, next.pcs other = state.pcs other ∨
      bystander (state.pcs other) = true ∧ bystander (next.pcs other) = true)
    (sessions : next.sessions = state.sessions) (sender : next.sessionSender = state.sessionSender)
    (allocation : next.nextSession = state.nextSession)
    (unused : ∀ session, state.sessionSender ≠ some (some session) → Unused (state.channels session) →
      Unused (next.channels session))
    (unspawned : ∀ session, (state.channels session).receiver = .unspawned → Receives state session [] →
      (next.channels session).receiver = .unspawned ∧ Receives next session [])
    (running : ∀ session collected, (state.channels session).receiver = .running collected →
      Receives state session collected →
      ∃ more, (next.channels session).receiver = .running more ∧ Receives next session more)
    (drains : ∀ session, Drains state session → Drains next session)
    (captures : ∀ session events, Captures state.log session events → Captures next.log session events)
    (returned : ∀ session events, .returned session events ∈ next.log →
      .returned session events ∈ state.log) : Flow next := by
  have same : ∀ other, bystander (next.pcs other) = false → state.pcs other = next.pcs other := by
    intro other inside
    rcases pcs other with kept | ⟨-, outside⟩
    · exact kept.symm
    · rw [outside] at inside
      cases inside
  refine ⟨?_, ?_, ?_, ?_, ?_, ?_, ?_, ?_⟩
  · intro session above
    rw [allocation] at above
    refine unused session (fun holds => ?_) (flow.fresh session above)
    exact Nat.lt_irrefl _ (Nat.lt_of_lt_of_le (flow.allocated session holds) above)
  · rw [sender, allocation]
    exact flow.allocated
  · intro other session point
    have before := (same other (by rw [point]; rfl)).trans point
    obtain ⟨below, clean, absent⟩ := flow.reserved other session before
    rw [allocation, sender]
    exact ⟨below, unused session absent clean, absent⟩
  · intro other session point
    have before := (same other (by rw [point]; rfl)).trans point
    obtain ⟨receiver, receives⟩ := flow.starting other session before
    exact unspawned session receiver receives
  · intro other session owned uncleared
    rw [sessions] at owned
    have before : sinkCleared (state.pcs other) = false := by
      rcases pcs other with kept | ⟨outside, -⟩
      · rw [← kept]
        exact uncleared
      · exact bystander_uncleared outside
    obtain ⟨collected, receiver, receives⟩ := flow.active other session owned before
    exact running session collected receiver receives
  · intro other session finish point
    have before := (same other (by rw [point]; rfl)).trans point
    obtain ⟨below, draining⟩ := flow.joining other session finish before
    rw [allocation]
    exact ⟨below, drains session draining⟩
  · intro other session finish events point
    have before := (same other (by rw [point]; rfl)).trans point
    exact captures session events (flow.joined other session finish events before)
  · exact fun session events member =>
      captures session events (flow.returned session events (returned session events member))

/-- One thread moves between control points outside `begin` and `tear_down`. -/
theorem bystander_move {pc : Pc} (source : bystander (state.pcs thread) = true)
    (target : bystander pc = true) (other : Tid) :
    Function.update state.pcs thread pc other = state.pcs other ∨
      bystander (state.pcs other) = true ∧ bystander (Function.update state.pcs thread pc other) = true := by
  by_cases same : other = thread
  · rw [same, Function.update_self]
    exact Or.inr ⟨source, target⟩
  · exact Or.inl (Function.update_of_ne same ..)

theorem quiet_bystander {pc : Pc} (silent : quiet pc = true) : bystander pc = true := by
  obtain ⟨begins, ends, -⟩ := quiet_roles silent
  rw [bystander, begins, ends]
  rfl

theorem flow_aside {pc : Pc} (locks : Locks state) (flow : Flow state)
    (aside : Aside state next thread pc) : Flow next := by
  have outside := (quiet_roles aside.source).2.2
  have same := locks.pending_move outside aside.holder aside.pcs
  have keeps : ∀ session received, Receives state session received → Receives next session received := by
    intro session received receives
    exact receives.frame aside.sender aside.log (by rw [aside.channels]) same
  refine flow.carry ?_ aside.sessions aside.sender aside.allocation ?_ ?_ ?_ ?_ ?_ ?_
  · rw [aside.pcs]
    exact bystander_move (quiet_bystander aside.source) (quiet_bystander aside.target)
  · rw [aside.channels]
    exact fun _ _ clean => clean
  · rw [aside.channels]
    exact fun session receiver receives => ⟨receiver, keeps session [] receives⟩
  · rw [aside.channels]
    exact fun session collected receiver receives => ⟨collected, receiver, keeps session collected receives⟩
  · intro session draining
    unfold Drains at draining ⊢
    rw [aside.channels, aside.sender, aside.log]
    exact draining
  · rw [aside.log]
    exact fun _ _ captures => captures
  · rw [aside.log]
    exact fun _ _ member => member

/-- `emit` takes the slot lock: its event becomes the pending one and the newest of the window. -/
theorem flow_emitSlotLock {event : ProbeEvent} (flow : Flow state)
    (point : state.pcs thread = .emitSession event) (free : state.slotHolder = none) :
    Flow { (state.goto thread (.emitLocked event)).record (.emitted thread event) with
      slotHolder := some thread } := by
  have account : ∀ session received, Receives state session received →
      Receives { (state.goto thread (.emitLocked event)).record (.emitted thread event) with
        slotHolder := some thread } session received := by
    intro session received receives
    refine receives.advance rfl rfl (fun entry member => ?_) ?_
    · rw [List.mem_singleton.mp member]
      rfl
    · rw [pending_held rfl, pending_free free, List.append_nil]
      change _ ++ pendingOf (Function.update state.pcs thread _ thread) = _
      rw [Function.update_self]
      rfl
  refine flow.carry ?_ rfl rfl rfl (fun _ _ clean => clean) ?_ ?_ ?_ ?_ ?_
  · exact bystander_move (by rw [point]; rfl) rfl
  · exact fun session receiver receives => ⟨receiver, account session [] receives⟩
  · exact fun session collected receiver receives => ⟨collected, receiver, account session collected receives⟩
  · rintro session ⟨gone, window, closed, rest⟩
    exact ⟨gone, window, closed.append _, rest⟩
  · exact fun _ _ captures => captures.append _
  · intro session events member
    rcases List.mem_append.mp member with old | new
    · exact old
    · cases List.mem_singleton.mp new

theorem send_receiver (channel : Channel) (event : ProbeEvent) :
    (channel.send event).receiver = channel.receiver := by
  unfold Channel.send
  split <;> rfl

/-- `emit` sends and leaves the slot's section: the pending event moves into the queue. -/
theorem flow_emitSend {event : ProbeEvent} {target : Session} (locks : Locks state) (flow : Flow state)
    (point : state.pcs thread = .emitLocked event) (sender : state.sessionSender = some (some target)) :
    Flow { state.goto thread .idle with
      slotHolder := none
      channels := Function.update state.channels target ((state.channels target).send event) } := by
  have held := (locks.slot thread).mp (by rw [point]; rfl)
  have elsewhere : ∀ session, state.sessionSender ≠ some (some session) →
      Function.update state.channels target ((state.channels target).send event) session =
        state.channels session := by
    intro session gone
    refine Function.update_of_ne ?_ _ _
    rintro rfl
    exact gone sender
  have receiver : ∀ session,
      (Function.update state.channels target ((state.channels target).send event) session).receiver =
        (state.channels session).receiver := by
    intro session
    by_cases same : session = target
    · rw [same, Function.update_self, send_receiver]
    · rw [Function.update_of_ne same]
  -- the session in the slot still has its receiver, so the event is queued
  have account : ∀ session received, (state.channels session).receiver = .unspawned ∨
      (∃ collected, (state.channels session).receiver = .running collected) →
      Receives state session received →
      Receives { state.goto thread .idle with
        slotHolder := none
        channels := Function.update state.channels target ((state.channels target).send event) }
          session received := by
    intro session received listening receives
    obtain rfl : session = target := Option.some.inj (Option.some.inj (receives.1.symm.trans sender))
    have queued : ((state.channels session).send event).queue = (state.channels session).queue ++ [event] := by
      unfold Channel.send
      rcases listening with unspawned | ⟨collected, running⟩
      · rw [unspawned]
      · rw [running]
    have updated : Function.update state.channels session ((state.channels session).send event) session =
        (state.channels session).send event := Function.update_self ..
    refine receives.advance rfl (List.append_nil _).symm nofun ?_
    rw [pending_held held, point, pending_free rfl]
    have moved := congrArg Channel.queue updated
    rw [queued] at moved
    refine (congrArg (fun queue => received ++ queue ++ []) moved).trans ?_
    simp only [pendingOf, emissions, List.filterMap_nil, List.append_nil, List.append_assoc]
  refine flow.carry ?_ rfl rfl rfl ?_ ?_ ?_ ?_ (fun _ _ captures => captures) (fun _ _ member => member)
  · exact bystander_move (by rw [point]; rfl) rfl
  · intro session gone clean
    exact (congrArg Unused (elsewhere session gone)).mpr clean
  · intro session unspawned receives
    exact ⟨(receiver session).trans unspawned, account session [] (Or.inl unspawned) receives⟩
  · intro session collected running receives
    exact ⟨collected, (receiver session).trans running, account session collected (Or.inr ⟨_, running⟩) receives⟩
  · rintro session ⟨gone, window, closed, rest⟩
    refine ⟨gone, window, closed, ?_⟩
    rw [← elsewhere session gone] at rest
    exact rest

/-- Without a session in the slot the event is dropped, and there is no account to keep. -/
theorem flow_emitDiscard {event : ProbeEvent} (flow : Flow state)
    (point : state.pcs thread = .emitLocked event)
    (empty : ∀ session, state.sessionSender ≠ some (some session)) :
    Flow { state.goto thread .idle with slotHolder := none } := by
  refine flow.carry ?_ rfl rfl rfl (fun _ _ clean => clean) ?_ ?_ (fun _ draining => draining)
    (fun _ _ captures => captures) (fun _ _ member => member)
  · exact bystander_move (by rw [point]; rfl) rfl
  · exact fun session _ receives => absurd receives.1 (empty session)
  · exact fun session _ _ receives => absurd receives.1 (empty session)

/-- The collector moves an event from the queue into its vector. -/
theorem flow_collect {session : Session} {event : ProbeEvent} {rest collected : List ProbeEvent}
    (flow : Flow state) (ready : state.channels session = ⟨event :: rest, .running collected⟩) :
    Flow { state with
      channels := Function.update state.channels session ⟨rest, .running (collected ++ [event])⟩ } := by
  have updated : Function.update state.channels session ⟨rest, .running (collected ++ [event])⟩ session =
      ⟨rest, .running (collected ++ [event])⟩ := Function.update_self ..
  have elsewhere : ∀ other, other ≠ session →
      Function.update state.channels session ⟨rest, .running (collected ++ [event])⟩ other =
        state.channels other := fun other different => Function.update_of_ne different _ _
  refine flow.carry (fun _ => Or.inl rfl) rfl rfl rfl ?_ ?_ ?_ ?_ (fun _ _ captures => captures)
    (fun _ _ member => member)
  · intro other _ clean
    have different : other ≠ session := by
      rintro rfl
      rw [ready] at clean
      cases clean.1
    exact (congrArg Unused (elsewhere other different)).mpr clean
  · intro other unspawned receives
    have different : other ≠ session := by
      rintro rfl
      rw [ready] at unspawned
      cases unspawned
    have kept := elsewhere other different
    have queue := congrArg Channel.queue kept
    exact ⟨(congrArg Channel.receiver kept).trans unspawned, receives.frame rfl rfl queue rfl⟩
  · intro other received running receives
    by_cases same : other = session
    · subst same
      rw [ready] at running
      obtain rfl := Receiver.running.inj running
      have receiver := congrArg Channel.receiver updated
      have queue := congrArg Channel.queue updated
      refine ⟨collected ++ [event], receiver, receives.advance rfl (List.append_nil _).symm nofun ?_⟩
      rw [ready]
      refine (congrArg (fun queue => collected ++ [event] ++ queue ++ pending state) queue).trans ?_
      simp only [emissions, List.filterMap_nil, List.append_nil, List.append_assoc, List.cons_append,
        List.nil_append]
    · have kept := elsewhere other same
      have queue := congrArg Channel.queue kept
      exact ⟨received, (congrArg Channel.receiver kept).trans running, receives.frame rfl rfl queue rfl⟩
  · rintro other ⟨gone, window, closed, account⟩
    refine ⟨gone, window, closed, ?_⟩
    change (∃ collected', (Function.update state.channels session _ other).receiver = .running collected' ∧
      collected' ++ (Function.update state.channels session _ other).queue = emissions window) ∨
        (Function.update state.channels session _ other).receiver = .finished (emissions window)
    by_cases same : other = session
    · subst same
      rw [ready] at account
      rw [updated]
      rcases account with ⟨received, running, all⟩ | finished
      · obtain rfl := Receiver.running.inj running
        exact Or.inl ⟨collected ++ [event], rfl, by rw [← all, List.append_assoc]; rfl⟩
      · cases finished
    · rw [elsewhere other same]
      exact account

/-- The collector ends on a disconnected channel. -/
theorem flow_collectEnd {session : Session} {collected : List ProbeEvent} (flow : Flow state)
    (gone : state.sessionSender ≠ some (some session))
    (ready : state.channels session = ⟨[], .running collected⟩) :
    Flow { state with channels := Function.update state.channels session ⟨[], .finished collected⟩ } := by
  have elsewhere : ∀ other, other ≠ session →
      Function.update state.channels session ⟨[], .finished collected⟩ other = state.channels other :=
    fun other different => Function.update_of_ne different _ _
  -- an account of an installed session is not one of this channel
  have installed : ∀ other received, Receives state other received → other ≠ session := by
    rintro other received receives rfl
    exact gone receives.1
  refine flow.carry (fun _ => Or.inl rfl) rfl rfl rfl ?_ ?_ ?_ ?_ (fun _ _ captures => captures)
    (fun _ _ member => member)
  · intro other _ clean
    have different : other ≠ session := by
      rintro rfl
      rw [ready] at clean
      cases clean.2
    exact (congrArg Unused (elsewhere other different)).mpr clean
  · intro other unspawned receives
    have kept := elsewhere other (installed other [] receives)
    have queue := congrArg Channel.queue kept
    exact ⟨(congrArg Channel.receiver kept).trans unspawned, receives.frame rfl rfl queue rfl⟩
  · intro other received running receives
    have kept := elsewhere other (installed other received receives)
    have queue := congrArg Channel.queue kept
    exact ⟨received, (congrArg Channel.receiver kept).trans running, receives.frame rfl rfl queue rfl⟩
  · rintro other ⟨absent, window, closed, account⟩
    refine ⟨absent, window, closed, ?_⟩
    change (∃ collected', (Function.update state.channels session _ other).receiver = .running collected' ∧
      collected' ++ (Function.update state.channels session _ other).queue = emissions window) ∨
        (Function.update state.channels session _ other).receiver = .finished (emissions window)
    by_cases same : other = session
    · subst same
      rw [ready] at account
      rw [Function.update_self]
      rcases account with ⟨received, running, all⟩ | finished
      · obtain rfl := Receiver.running.inj running
        rw [List.append_nil] at all
        exact Or.inr (congrArg Receiver.finished all)
      · cases finished
    · rw [elsewhere other same]
      exact account

theorem flow_step {action : Action} (locks : Locks state) (flow : Flow state)
    (stepped : step state action = some next) : Flow next := by
  cases step_transition stepped with
  | @beginLock thread point free =>
    have held : ∀ holder, state.captureHolder = some holder → holder = thread := by
      intro holder held
      rw [free] at held
      cases held
    have unowned : state.sessions thread = none := by
      by_contra owned
      rw [locks.capture thread (Or.inl owned)] at free
      cases free
    exact flow_opening locks flow held unowned rfl (Or.inl rfl) rfl rfl rfl rfl rfl
  | beginReset point =>
    obtain ⟨held, unowned⟩ := locks.of_beginning point rfl
    exact flow_opening locks flow held unowned rfl (Or.inr rfl) rfl rfl rfl rfl rfl
  | beginSlotLock point free => exact flow_beginSlotLock locks flow point
  | beginInstall point => exact flow_beginInstall locks flow point
  | beginSpawn point => exact flow_beginSpawn locks flow point
  | beginSpawnFailed point => exact flow_beginSpawnFailed locks flow point
  | tearLock point owned free => exact flow_tearLock locks flow point owned free
  | tearClear point => exact flow_tearClear locks flow point
  | tearJoin point ended => exact flow_tearJoin locks flow point ended
  | tearFinish point => exact (flow_tearRelease locks flow point).2
  | tearDrop point => exact (flow_tearRelease locks flow point).1
  | emitSlotLock point free => exact flow_emitSlotLock flow point free
  | emitSend point sender => exact flow_emitSend locks flow point sender
  | emitDiscard point empty => exact flow_emitDiscard flow point empty
  | collect ready => exact flow_collect flow ready
  | collectEnd gone ready => exact flow_collectEnd flow gone ready
  | _ =>
    obtain ⟨thread, pc, aside⟩ := Transition.aside (step_transition stepped) trivial
    exact flow_aside locks flow aside

end Steps

end Laplace.Soundness.Capture
