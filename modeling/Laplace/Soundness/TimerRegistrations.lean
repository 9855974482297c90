import Laplace.Model.Timers

/-! # Timer registrations

A timer that stands pending is registered with the hook. A `Sleep`, and so a `Timeout`, takes the registration
back when it is dropped; an `Interval` does not, and leaves it behind. The reports of dropped timers are never
wrong: each is for a registration that is outstanding.
-/

namespace Laplace.Soundness.Timing

open Laplace.Machine Laplace.Model.Timers
open Laplace.Model.Runtime (PollResult fetchNext saturatingAdd u64Max)

variable {Process Output : Type}

/-- Where a timer stands. -/
inductive Phase where
  /-- No id was drawn. -/
  | idle
  | drawn (timer : UInt64)
  | registered (timer deadline : UInt64)
  /-- The timer's last reading of the clock, with no registration outstanding. -/
  | elapsed (timer reached : UInt64)
  | reported (timer : UInt64)
  /-- A clock that went back, which never happens. -/
  | impossible
deriving DecidableEq

namespace Phase

/-- The id of a timer. -/
def timer : Phase → Option UInt64
  | .idle | .impossible => none
  | .drawn timer | .registered timer _ | .elapsed timer _ | .reported timer => some timer

/-- The timer reads the clock. -/
def read (now : UInt64) : Phase → Phase
  | .drawn timer => .elapsed timer now
  | .registered timer deadline => if deadline ≤ now then .elapsed timer now else .registered timer deadline
  | .elapsed timer reached => if reached ≤ now then .elapsed timer now else .impossible
  | phase => phase

/-- An owner never calls the hook for another timer. -/
def permits : Phase → Effect Output → Prop
  | .impossible, _ => True
  | phase, .nextWaiter => phase = .idle
  | phase, .nowNanos _ => phase ≠ .idle ∧ ∀ timer, phase ≠ .reported timer
  | phase, .register _ timer _ =>
      (∃ reached, phase = .elapsed timer reached) ∨ ∃ deadline, phase = .registered timer deadline
  | phase, .timerDropped _ timer => ∃ deadline, phase = .registered timer deadline
  | _, _ => True

def after : Phase → (effect : Effect Output) → effect.Reply → Option Phase
  | .impossible, _, _ => some .impossible
  | phase, .nextWaiter, some timer => if phase = .idle then some (.drawn timer) else some phase
  | phase, .nowNanos _, now => some (phase.read now)
  | _, .register _ timer deadline, _ => some (.registered timer deadline)
  | _, .timerDropped _ timer, _ => some (.reported timer)
  | phase, _, _ => some phase

/-- A sleep that is pending is registered. -/
def SleepRest (phase : Phase) (sleep : Sleep) : Prop :=
  match sleep.state with
  | .unstarted _ => phase = .idle ∧ sleep.resolved = false
  | .unhooked _ => phase = .idle
  | .hooked timer deadline _ =>
      if sleep.resolved then ∃ reached, phase = .elapsed timer reached ∧ deadline ≤ reached
      else phase = .registered timer deadline

/-- An interval is registered for its next tick, if at all. -/
def IntervalRest (phase : Phase) (interval : Interval) : Prop :=
  match interval.state with
  | .unstarted _ | .unhooked _ => phase = .idle
  | .hooked timer _ nextDeadline _ => (∃ reached, phase = .elapsed timer reached) ∨
      phase = .registered timer nextDeadline

/-- The phase that suits an owner between two operations; nothing that is dropped is left registered. -/
def Rest (phase : Phase) (owner : Owner) : Prop :=
  phase = .impossible ∨
    match owner with
    | .absent => phase = .idle
    | .sleep sleep => phase.SleepRest sleep
    | .timeout timeout => phase.SleepRest timeout.delay
    | .interval interval => phase.IntervalRest interval
    | .dropped => ∀ timer deadline, phase ≠ .registered timer deadline

end Phase

section Alive

variable {phase : Phase} {hook : Hook} {timer deadline : UInt64}

theorem nowNanos_after (now : UInt64) : phase.after (.nowNanos hook : Effect Output) now = some (phase.read now) := by
  cases phase <;> rfl

theorem nowNanos_permitted (alive : phase ≠ .impossible)
    (permitted : phase.permits (.nowNanos hook : Effect Output)) :
    phase ≠ .idle ∧ ∀ timer, phase ≠ .reported timer := by
  cases phase <;> first | exact permitted | exact absurd rfl alive

theorem register_after (alive : phase ≠ .impossible) :
    phase.after (.register hook timer deadline : Effect Output) () = some (.registered timer deadline) := by
  cases phase <;> first | rfl | exact absurd rfl alive

theorem register_permitted (alive : phase ≠ .impossible)
    (permitted : phase.permits (.register hook timer deadline : Effect Output)) :
    (∃ reached, phase = .elapsed timer reached) ∨ ∃ deadline, phase = .registered timer deadline := by
  cases phase <;> first | exact permitted | exact absurd rfl alive

theorem timerDropped_after (alive : phase ≠ .impossible) :
    phase.after (.timerDropped hook timer : Effect Output) () = some (.reported timer) := by
  cases phase <;> first | rfl | exact absurd rfl alive

theorem timerDropped_permitted (alive : phase ≠ .impossible)
    (permitted : phase.permits (.timerDropped hook timer : Effect Output)) :
    ∃ deadline, phase = .registered timer deadline := by
  cases phase <;> first | exact permitted | exact absurd rfl alive

theorem nextWaiter_permitted (alive : phase ≠ .impossible) (permitted : phase.permits (.nextWaiter : Effect Output)) :
    phase = .idle := by
  cases phase <;> first | exact permitted | exact absurd rfl alive

end Alive

def protocol : Protocol (Effect Output) Effect.Reply Phase where
  permits := Phase.permits
  possible
    | .timerHook, hook => hook = some 0
    | _, _ => True
  after := Phase.after

abbrev TimerConforms {α : Type} (rest : Phase → α → Prop) (phase : Phase) (program : TimerM Output α) : Prop :=
  program.Conforms protocol rest phase

section Conformance

/-- Once the clock went back, anything goes. -/
theorem conforms_impossible {α : Type} {rest : Phase → α → Prop} (resting : ∀ value, rest .impossible value)
    (program : TimerM Output α) : TimerConforms rest .impossible program :=
  Program.conforms_absorbed (fun _ => trivial) (fun _ _ => rfl) resting program

variable {phase : Phase} {timer deadline reached now : UInt64} {hook : Hook} {resolved : Bool}

/-- A sleep that finds its deadline reached, or registers itself. -/
theorem sleepDecides_conforms (stands : phase = .elapsed timer now ∨ phase = .registered timer deadline ∧
    ¬ deadline ≤ now)
    (unresolved : resolved = true → deadline ≤ now) :
    TimerConforms (fun later polled => later.SleepRest polled.2) phase
      (if deadline ≤ now then
        return (.ready (), { state := .hooked timer deadline hook, resolved := true })
      else do
        perform (.register hook timer deadline)
        return (.pending, { state := .hooked timer deadline hook, resolved }) :
            TimerM Output (PollResult Unit × Sleep)) := by
  split
  · next due =>
    rcases stands with rfl | ⟨-, notDue⟩
    · exact ⟨now, rfl, due⟩
    · exact absurd due notDue
  · next notDue =>
    have open_ : resolved = false := by
      cases resolved with
      | false => rfl
      | true => exact absurd (unresolved rfl) notDue
    subst open_
    rcases stands with rfl | ⟨rfl, -⟩
    · exact ⟨.inl ⟨now, rfl⟩, fun _ _ => ⟨.registered timer deadline, rfl, rfl⟩⟩
    · exact ⟨.inr ⟨deadline, rfl⟩, fun _ _ => ⟨.registered timer deadline, rfl, rfl⟩⟩

/-- What the rest of a poll may assume. -/
theorem conforms_weaken {α : Type} {rest : Phase → α → Prop} {program : TimerM Output α}
    (conforms : TimerConforms rest phase program) :
    TimerConforms (fun later value => later = .impossible ∨ rest later value) phase program :=
  conforms.mono fun _ _ resting => .inr resting

/-- A reading of the clock by a timer that has read it before. -/
theorem read_conforms {α : Type} {rest : Phase → α → Prop} {next : UInt64 → TimerM Output α}
    (onward : ∀ now, reached ≤ now → TimerConforms rest (.elapsed timer now) (next now)) :
    TimerConforms (fun later value => later = .impossible ∨ rest later value) (.elapsed timer reached)
      (perform (.nowNanos hook) >>= next) := by
  refine ⟨⟨nofun, nofun⟩, fun now _ => ?_⟩
  by_cases forward : reached ≤ now
  · exact ⟨.elapsed timer now, congrArg some (if_pos forward), conforms_weaken (onward now forward)⟩
  · exact ⟨.impossible, congrArg some (if_neg forward), conforms_impossible (fun _ => .inl rfl) _⟩

/-- A reading of the clock by a timer that is registered. -/
theorem read_registered_conforms {α : Type} {rest : Phase → α → Prop} {next : UInt64 → TimerM Output α}
    (reachedIt : ∀ now, deadline ≤ now → TimerConforms rest (.elapsed timer now) (next now))
    (notYet : ∀ now, ¬ deadline ≤ now → TimerConforms rest (.registered timer deadline) (next now)) :
    TimerConforms rest (.registered timer deadline) (perform (.nowNanos hook) >>= next) := by
  refine ⟨⟨nofun, nofun⟩, fun now _ => ?_⟩
  by_cases due : deadline ≤ now
  · exact ⟨.elapsed timer now, congrArg some (if_pos due), reachedIt now due⟩
  · exact ⟨.registered timer deadline, congrArg some (if_neg due), notYet now due⟩

/-- Where a sleep stands once it has started. -/
def SleepStands (phase : Phase) (sleep : Sleep) : Prop :=
  match sleep.state with
  | .unstarted _ => False
  | .unhooked _ => phase = .idle
  | .hooked timer deadline _ =>
      (∃ reached, phase = .elapsed timer reached ∧ (sleep.resolved = true → deadline ≤ reached)) ∨
        sleep.resolved = false ∧ phase = .registered timer deadline

theorem sleepPollStarted_conforms {sleep : Sleep} (stands : SleepStands phase sleep) :
    TimerConforms (fun later polled => later = .impossible ∨ later.SleepRest polled.2) phase
      (sleep.pollStarted : TimerM Output (PollResult Unit × Sleep)) := by
  obtain ⟨state, resolved⟩ := sleep
  cases state with
  | unstarted duration => exact stands.elim
  | unhooked inner =>
    obtain rfl : phase = .idle := stands
    refine ⟨trivial, fun polled _ => ⟨.idle, rfl, ?_⟩⟩
    cases polled <;> exact .inr rfl
  | hooked timer deadline hook =>
    rcases stands with ⟨reached, rfl, wasDue⟩ | ⟨rfl, rfl⟩
    · apply read_conforms
      intro now forward
      apply sleepDecides_conforms (.inl rfl)
      exact fun isResolved => UInt64.le_trans (wasDue isResolved) forward
    · apply conforms_weaken
      apply read_registered_conforms
      · exact fun now _ => sleepDecides_conforms (.inl rfl) nofun
      · exact fun now notDue => sleepDecides_conforms (.inr ⟨rfl, notDue⟩) nofun

theorem sleepStart_conforms {sleep : Sleep} (rest : phase.SleepRest sleep) :
    TimerConforms (fun later started => later = .impossible ∨
      match started with
      | none => later.SleepRest sleep
      | some started => SleepStands later started) phase (sleep.start : TimerM Output (Option Sleep)) := by
  obtain ⟨state, resolved⟩ := sleep
  cases state with
  | unhooked inner => exact .inr rest
  | hooked timer deadline hook =>
    right
    cases resolved with
    | true =>
      obtain ⟨reached, rfl, due⟩ := rest
      exact .inl ⟨reached, rfl, fun _ => due⟩
    | false => exact .inr ⟨rfl, rest⟩
  | unstarted duration =>
    obtain ⟨rfl, rfl⟩ : phase = .idle ∧ resolved = false := rest
    refine ⟨trivial, fun found isFound => ⟨.idle, rfl, ?_⟩⟩
    obtain rfl : found = some 0 := isFound
    refine ⟨rfl, fun drawn _ => ?_⟩
    cases drawn with
    | none => exact ⟨.idle, rfl, .inr ⟨rfl, rfl⟩⟩
    | some timer =>
      exact ⟨.drawn timer, rfl, ⟨nofun, nofun⟩, fun now _ => ⟨.elapsed timer now, rfl, .inr (.inl ⟨now, rfl, nofun⟩)⟩⟩

theorem sleepPoll_conforms {sleep : Sleep} (rest : phase.SleepRest sleep) :
    TimerConforms (fun later polled => later = .impossible ∨ later.SleepRest polled.2) phase
      (sleep.poll : TimerM Output (PollResult Unit × Sleep)) := by
  refine (sleepStart_conforms rest).bind fun later started stands => ?_
  rcases stands with rfl | stands
  · exact conforms_impossible (fun _ => .inl rfl) _
  · cases started with
    | none => exact .inr stands
    | some started => exact sleepPollStarted_conforms stands

theorem sleepDrop_conforms {sleep : Sleep} (rest : phase.SleepRest sleep) :
    TimerConforms (fun later _ => ∀ timer deadline, later ≠ .registered timer deadline) phase
      (sleep.drop : TimerM Output Unit) := by
  obtain ⟨state, resolved⟩ := sleep
  cases state with
  | unstarted duration =>
    obtain ⟨rfl, -⟩ := rest
    exact nofun
  | unhooked inner =>
    obtain rfl : phase = .idle := rest
    exact ⟨trivial, fun _ _ => ⟨.idle, rfl, nofun⟩⟩
  | hooked timer deadline hook =>
    cases resolved with
    | true =>
      obtain ⟨reached, rfl, -⟩ := rest
      exact nofun
    | false =>
      obtain rfl : phase = .registered timer deadline := rest
      exact ⟨⟨deadline, rfl⟩, fun _ _ => ⟨.reported timer, rfl, nofun⟩⟩

/-- What the future inside a timeout does leaves the timer alone. -/
theorem future_after (phase : Phase) (polled : PollResult Output) :
    phase.permits (.pollFuture : Effect Output) ∧ phase.after (.pollFuture : Effect Output) polled = some phase := by
  cases phase <;> exact ⟨trivial, rfl⟩

theorem dropFuture_after (phase : Phase) :
    phase.permits (.dropFuture : Effect Output) ∧ phase.after (.dropFuture : Effect Output) () = some phase := by
  cases phase <;> exact ⟨trivial, rfl⟩

theorem timeoutPoll_conforms {timeout : Timeout} (rest : phase.SleepRest timeout.delay) :
    TimerConforms (fun later polled => later = .impossible ∨ later.SleepRest polled.2.delay) phase
      (timeout.poll : TimerM Output (PollResult (Except Elapsed Output) × Timeout)) := by
  refine ⟨(future_after phase .pending).1, fun polled _ => ⟨phase, (future_after phase polled).2, ?_⟩⟩
  cases polled with
  | ready value => exact .inr rest
  | panicked => exact .inr rest
  | pending =>
    refine (sleepPoll_conforms rest).bind fun later polled stands => ?_
    obtain ⟨polled, delay⟩ := polled
    cases polled <;> exact stands

theorem timeoutDrop_conforms {timeout : Timeout} (rest : phase.SleepRest timeout.delay) :
    TimerConforms (fun later _ => ∀ timer deadline, later ≠ .registered timer deadline) phase
      (timeout.drop : TimerM Output Unit) :=
  ⟨(dropFuture_after phase).1, fun _ _ => ⟨phase, (dropFuture_after phase).2, sleepDrop_conforms rest⟩⟩

/-- Where an interval stands once it has started. -/
def IntervalStands (phase : Phase) (interval : Interval) : Prop :=
  phase.IntervalRest interval ∧ ∀ period, interval.state ≠ .unstarted period

theorem intervalPollStarted_conforms {interval : Interval} (stands : IntervalStands phase interval) :
    TimerConforms (fun later polled => later = .impossible ∨ later.IntervalRest polled.2) phase
      (interval.pollStarted : TimerM Output (PollResult Unit × Interval)) := by
  obtain ⟨rest, isStarted⟩ := stands
  obtain ⟨state⟩ := interval
  cases state with
  | unstarted period => exact absurd rfl (isStarted period)
  | unhooked inner =>
    obtain rfl : phase = .idle := rest
    exact ⟨trivial, fun _ _ => ⟨.idle, rfl, .inr rfl⟩⟩
  | hooked timer period deadline hook =>
    rcases rest with ⟨reached, rfl⟩ | rfl
    · apply read_conforms
      intro now _
      split
      · exact .inl ⟨now, rfl⟩
      · exact ⟨.inl ⟨now, rfl⟩, fun _ _ => ⟨.registered timer deadline, rfl, .inr rfl⟩⟩
    · apply conforms_weaken
      apply read_registered_conforms
      · intro now due
        rw [if_pos due]
        exact .inl ⟨now, rfl⟩
      · intro now notDue
        rw [if_neg notDue]
        exact ⟨.inr ⟨deadline, rfl⟩, fun _ _ => ⟨.registered timer deadline, rfl, .inr rfl⟩⟩

theorem intervalStart_conforms {interval : Interval} (rest : phase.IntervalRest interval) :
    TimerConforms (fun later started => later = .impossible ∨
      match started with
      | none => later.IntervalRest interval
      | some started => IntervalStands later started) phase (interval.start : TimerM Output (Option Interval)) := by
  obtain ⟨state⟩ := interval
  cases state with
  | unhooked inner => exact .inr ⟨rest, nofun⟩
  | hooked timer period deadline hook => exact .inr ⟨rest, nofun⟩
  | unstarted period =>
    obtain rfl : phase = .idle := rest
    refine ⟨trivial, fun found isFound => ⟨.idle, rfl, ?_⟩⟩
    obtain rfl : found = some 0 := isFound
    refine ⟨rfl, fun drawn _ => ?_⟩
    cases drawn with
    | none => exact ⟨.idle, rfl, .inr rfl⟩
    | some timer =>
      refine ⟨.drawn timer, rfl, ⟨nofun, nofun⟩, fun now _ => ⟨.elapsed timer now, rfl, .inr ⟨?_, nofun⟩⟩⟩
      exact .inl ⟨now, rfl⟩

theorem intervalPoll_conforms {interval : Interval} (rest : phase.IntervalRest interval) :
    TimerConforms (fun later polled => later = .impossible ∨ later.IntervalRest polled.2) phase
      (interval.pollTick : TimerM Output (PollResult Unit × Interval)) := by
  refine (intervalStart_conforms rest).bind fun later started stands => ?_
  rcases stands with rfl | stands
  · exact conforms_impossible (fun _ => .inl rfl) _
  · cases started with
    | none => exact .inr stands
    | some started => exact intervalPollStarted_conforms stands

/-- An interval is dropped in silence. -/
theorem intervalDrop_conforms {interval : Interval} (rest : phase.IntervalRest interval)
    (unregistered : ∀ timer deadline, phase ≠ .registered timer deadline) :
    TimerConforms (fun later _ => ∀ timer deadline, later ≠ .registered timer deadline) phase
      (interval.drop : TimerM Output Unit) := by
  obtain ⟨state⟩ := interval
  cases state with
  | unstarted period => exact unregistered
  | hooked timer period deadline hook => exact unregistered
  | unhooked inner =>
    obtain rfl : phase = .idle := rest
    exact ⟨trivial, fun _ _ => ⟨.idle, rfl, nofun⟩⟩

/-- Every operation conforms, if an interval is dropped only while it is not registered. -/
theorem start_conforms {owner : Owner} {operation : Operation} {program : TimerM Output Owner}
    (started : start owner operation = some program) (rest : phase.Rest owner)
    (admitted : ∀ interval, owner = .interval interval → operation = .drop →
      ∀ timer deadline, phase ≠ .registered timer deadline) : TimerConforms Phase.Rest phase program := by
  rcases rest with rfl | rest
  · exact conforms_impossible (fun _ => .inl rfl) _
  · cases owner with
    | absent =>
      obtain rfl : phase = .idle := rest
      cases operation with
      | sleep duration | timeout duration =>
        obtain rfl := Option.some.inj started
        exact .inr ⟨rfl, rfl⟩
      | interval period =>
        obtain rfl := Option.some.inj started
        by_cases positive : 0 < period.asNanos
        · rw [interval, if_pos positive]
          exact .inr rfl
        · rw [interval, if_neg positive]
          exact .inr rfl
      | poll | drop => cases started
    | sleep sleep =>
      cases operation with
      | poll =>
        obtain rfl := Option.some.inj started
        exact (sleepPoll_conforms rest).bind fun _ _ stands => stands
      | drop =>
        obtain rfl := Option.some.inj started
        exact (sleepDrop_conforms rest).bind fun _ _ unregistered => .inr unregistered
      | sleep duration | timeout duration | interval period => cases started
    | timeout timeout =>
      cases operation with
      | poll =>
        obtain rfl := Option.some.inj started
        exact (timeoutPoll_conforms rest).bind fun _ _ stands => stands
      | drop =>
        obtain rfl := Option.some.inj started
        exact (timeoutDrop_conforms rest).bind fun _ _ unregistered => .inr unregistered
      | sleep duration | timeout duration | interval period => cases started
    | interval interval =>
      cases operation with
      | poll =>
        obtain rfl := Option.some.inj started
        exact (intervalPoll_conforms rest).bind fun _ _ stands => stands
      | drop =>
        obtain rfl := Option.some.inj started
        have unregistered := admitted interval rfl rfl
        exact (intervalDrop_conforms rest unregistered).bind fun _ _ unregistered => .inr unregistered
      | sleep duration | timeout duration | interval period => cases started
    | dropped => cases operation <;> cases started

end Conformance

section Registrations

variable [DecidableEq Process]

/-- The timer that a call of the hook names. -/
def named : Call → Option UInt64
  | .nowNanos _ => none
  | .register timer _ | .timerDropped timer => some timer

/-- A registration stands until its owner reads a clock that has reached the deadline. -/
def registrationStep (process : Process) (timer : UInt64) (current : Option UInt64) (entry : Process × Call) :
    Option UInt64 :=
  if entry.1 = process then
    match entry.2 with
    | .register registered deadline => if registered = timer then some deadline else current
    | .nowNanos now => current.filter fun deadline => ¬ deadline ≤ now
    | .timerDropped _ => current
  else current

/-- The deadline of the last registration of a timer, unless a later poll by its owner has observed it. -/
def outstanding (process : Process) (timer : UInt64) (trace : List (Process × Call)) : Option UInt64 :=
  trace.foldl (registrationStep process timer) none

/-- How often the timer was reported as dropped. -/
def dropReports (timer : UInt64) (trace : List (Process × Call)) : ℕ :=
  trace.countP fun entry => entry.2 = .timerDropped timer

variable {trace : List (Process × Call)} {process other : Process} {timer : UInt64} {call : Call}

theorem outstanding_append (entry : Process × Call) :
    outstanding process timer (trace ++ [entry]) = registrationStep process timer (outstanding process timer trace) entry := by
  rw [outstanding, List.foldl_append]
  rfl

omit [DecidableEq Process] in
theorem dropReports_append (entry : Process × Call) :
    dropReports timer (trace ++ [entry]) = dropReports timer trace + if entry.2 = .timerDropped timer then 1 else 0 := by
  rw [dropReports, List.countP_append, List.countP_singleton]
  simp only [dropReports, decide_eq_true_eq]

theorem outstanding_read (now : UInt64) :
    outstanding process timer (trace ++ [(process, .nowNanos now)]) =
      (outstanding process timer trace).filter fun deadline => ¬ deadline ≤ now := by
  rw [outstanding_append]
  exact if_pos rfl

/-- What another owner calls. -/
theorem outstanding_apart (different : other ≠ process) :
    outstanding process timer (trace ++ [(other, call)]) = outstanding process timer trace := by
  rw [outstanding_append]
  exact if_neg different

omit [DecidableEq Process] in
theorem dropReports_apart (unnamed : named call ≠ some timer) :
    dropReports timer (trace ++ [(other, call)]) = dropReports timer trace := by
  have notDropped : call ≠ .timerDropped timer := by
    rintro rfl
    exact unnamed rfl
  rw [dropReports_append, if_neg notDropped, Nat.add_zero]

omit [DecidableEq Process] in
theorem dropReports_read (now : UInt64) :
    dropReports timer (trace ++ [(process, .nowNanos now)]) = dropReports timer trace :=
  dropReports_apart fun isNamed => nomatch isNamed

/-- A registration that is outstanding was made by its owner. -/
theorem outstanding_registered {deadline : UInt64} (isOutstanding : outstanding process timer trace = some deadline) :
    (process, .register timer deadline) ∈ trace := by
  induction trace using List.reverseRecOn with
  | nil => cases isOutstanding
  | append_singleton trace entry ih =>
    have earlier : outstanding process timer trace = some deadline →
        (process, .register timer deadline) ∈ trace ++ [entry] :=
      fun before => List.mem_append_left _ (ih before)
    rw [outstanding_append] at isOutstanding
    obtain ⟨caller, call⟩ := entry
    rcases eq_or_ne caller process with rfl | different
    · rw [registrationStep, if_pos rfl] at isOutstanding
      cases call with
      | timerDropped dropped => exact earlier isOutstanding
      | nowNanos now => exact earlier (Option.eq_some_of_filter_eq_some isOutstanding)
      | register registered deadline' =>
        by_cases same : registered = timer
        · obtain rfl := Option.some.inj ((if_pos same).symm.trans isOutstanding)
          rw [same]
          exact List.mem_append_right _ (List.mem_singleton_self _)
        · exact earlier ((if_neg same).symm.trans isOutstanding)
    · exact earlier ((if_neg different).symm.trans isOutstanding)

/-- A timer that no call names. -/
theorem unnamed_unregistered (unnamed : ∀ entry ∈ trace, named entry.2 ≠ some timer) :
    outstanding process timer trace = none ∧ dropReports timer trace = 0 := by
  constructor
  · rw [Option.eq_none_iff_forall_ne_some]
    exact fun deadline isOutstanding => unnamed _ (outstanding_registered isOutstanding) rfl
  · rw [dropReports, List.countP_eq_zero]
    intro entry member isDrop
    apply unnamed entry member
    rw [of_decide_eq_true isDrop]
    rfl

/-- A drop is reported for a registration that is outstanding. -/
def Rightful (before : List (Process × Call)) (entry : Process × Call) : Prop :=
  ∀ timer, entry.2 = .timerDropped timer → ∃ deadline, outstanding entry.1 timer before = some deadline

/-- What the trace shows of a timer. -/
def Status (world : World Process) (process : Process) : Phase → Prop
  | .idle => True
  | .drawn timer => outstanding process timer world.trace = none ∧ dropReports timer world.trace = 0
  | .registered timer deadline =>
      outstanding process timer world.trace = some deadline ∧ dropReports timer world.trace = 0
  | .elapsed timer reached =>
      (outstanding process timer world.trace = none ∧ dropReports timer world.trace = 0) ∧ reached ≤ world.now
  | .reported timer => dropReports timer world.trace = 1
  | .impossible => False

/-- Every owner has an id of its own, and only it calls the hook about this timer. -/
structure Invariant (world : World Process) (phases : Process → Phase) : Prop where
  owned : ∀ entry ∈ world.trace, ∀ timer, named entry.2 = some timer → (phases entry.1).timer = some timer
  distinct : ∀ process other timer, (phases process).timer = some timer → (phases other).timer = some timer →
    process = other
  drawn : ∀ process timer, (phases process).timer = some timer → timer < world.nextWaiter
  status : ∀ process, Status world process (phases process)
  rightful : Throughout Rightful world.trace

variable {world : World Process} {phases : Process → Phase} {later : Phase}

/-- A call of the hook by an owner about its own timer. -/
theorem Invariant.called (holds : Invariant world phases) {now : UInt64} (forward : world.now ≤ now)
    (sameTimer : later.timer = (phases process).timer)
        (own : ∀ timer, named call = some timer → later.timer = some timer)
    (status : Status { world with now, trace := world.trace ++ [(process, call)] } process later)
    (rightful : Rightful world.trace (process, call)) :
    Invariant { world with now, trace := world.trace ++ [(process,
        call)] } (Function.update phases process later) := by
  have timers : ∀ other, (Function.update phases process later other).timer = (phases other).timer := by
    intro other
    rcases eq_or_ne other process with rfl | different
    · rw [Function.update_self, sameTimer]
    · rw [Function.update_of_ne different]
  refine ⟨fun entry member timer isNamed => ?_, fun one other timer hasOne hasOther => ?_,
      fun other timer has => ?_, ?_, ?_⟩
  · rw [timers]
    rcases List.mem_append.mp member with old | new
    · exact holds.owned entry old timer isNamed
    · obtain rfl := List.mem_singleton.mp new
      rw [← sameTimer]
      exact own timer isNamed
  · rw [timers] at hasOne hasOther
    exact holds.distinct one other timer hasOne hasOther
  · rw [timers] at has
    exact holds.drawn other timer has
  · refine (Function.forall_update_iff phases fun other phase => Status _ other phase).mpr ⟨status,
      fun other different => ?_⟩
    -- The call names another timer than that of `other`, so that `other` stands as before.
    have unnamed : ∀ timer, (phases other).timer = some timer → named call ≠ some timer := by
      intro timer has isNamed
      exact different (holds.distinct other process timer has (sameTimer ▸ own timer isNamed))
    have before := holds.status other
    cases stands : phases other with
    | idle => trivial
    | impossible =>
      rw [stands] at before
      exact before
    | drawn timer | registered timer deadline | reported timer | elapsed timer reached =>
      rw [stands] at before unnamed
      have apart := unnamed timer rfl
      simp only [Status, outstanding_apart different.symm, dropReports_apart apart] at before ⊢
      first
        | exact before
        | exact ⟨before.1, UInt64.le_trans before.2 forward⟩
  · exact holds.rightful.append rightful

theorem fetchNext_some {counter : UInt64} (drawn : (fetchNext counter).1 = some timer) :
    timer = counter ∧ ∀ other : UInt64, other < counter ∨ other = counter → other < (fetchNext counter).2 := by
  unfold fetchNext at drawn ⊢
  split at drawn
  · next bound =>
    obtain rfl := Option.some.inj drawn
    refine ⟨rfl, fun other below => ?_⟩
    rw [if_pos bound, UInt64.lt_iff_toNat_lt, UInt64.toNat_add]
    have next : (counter.toNat + (1 : UInt64).toNat) % 2 ^ 64 = counter.toNat + 1 := Nat.mod_eq_of_lt bound
    rw [next]
    rcases below with below | rfl
    · rw [UInt64.lt_iff_toNat_lt] at below
      omega
    · omega
  · cases drawn

theorem fetchNext_none {counter : UInt64} (exhausted : (fetchNext counter).1 = none) :
    (fetchNext counter).2 = counter := by
  unfold fetchNext at exhausted ⊢
  split at exhausted
  · cases exhausted
  · next bound => rw [if_neg bound]

/-- A timer draws its id, which no call has named. -/
theorem Invariant.took (holds : Invariant world phases) (isIdle : phases process = .idle)
    (drawn : (fetchNext world.nextWaiter).1 = some timer) :
    Invariant { world with nextWaiter := (fetchNext world.nextWaiter).2 }
      (Function.update phases process (.drawn timer)) := by
  obtain ⟨rfl, below⟩ := fetchNext_some drawn
  have fresh : ∀ other, (phases other).timer ≠ some world.nextWaiter := by
    intro other has
    have lower := holds.drawn other _ has
    rw [UInt64.lt_iff_toNat_lt] at lower
    omega
  refine ⟨fun entry member timer isNamed => ?_, fun one other timer => ?_, ?_, ?_, holds.rightful⟩
  · have has := holds.owned entry member timer isNamed
    rcases eq_or_ne entry.1 process with same | different
    · rw [same, isIdle] at has
      cases has
    · rwa [Function.update_of_ne different]
  · rcases eq_or_ne one process with sameOne | differentOne <;>
      rcases eq_or_ne other process with sameOther | differentOther
    · exact fun _ _ => sameOne.trans sameOther.symm
    · rw [sameOne, Function.update_self, Function.update_of_ne differentOther]
      intro has has'
      rw [← has] at has'
      exact absurd has' (fresh other)
    · rw [sameOther, Function.update_self, Function.update_of_ne differentOne]
      intro has has'
      rw [← has'] at has
      exact absurd has (fresh one)
    · rw [Function.update_of_ne differentOne, Function.update_of_ne differentOther]
      exact holds.distinct one other timer
  · refine (Function.forall_update_iff phases fun other phase => ∀ timer, phase.timer = some timer →
      timer < (fetchNext world.nextWaiter).2).mpr ⟨fun timer has => ?_, fun other _ timer has => ?_⟩
    · exact below timer (.inr (Option.some.inj has).symm)
    · exact below timer (.inl (holds.drawn other timer has))
  · refine (Function.forall_update_iff phases fun other phase => Status _ other phase).mpr
      ⟨unnamed_unregistered fun entry member isNamed => ?_, fun other _ => holds.status other⟩
    exact fresh entry.1 (holds.owned entry member _ isNamed)

/-- The clock is read by a timer that has an id and has not been dropped. -/
theorem status_read (holds : Invariant world phases) {now : UInt64} (forward : world.now ≤ now)
    (hasTimer : phases process ≠ .idle) (alive : ∀ timer, phases process ≠ .reported timer) :
    ((phases process).read now).timer = (phases process).timer ∧
      Status { world with now, trace := world.trace ++ [(process,
          .nowNanos now)] } process ((phases process).read now) := by
  have before := holds.status process
  cases stands : phases process with
  | idle => exact absurd stands hasTimer
  | reported timer => exact absurd stands (alive timer)
  | impossible =>
    rw [stands] at before
    exact before.elim
  | drawn timer =>
    rw [stands] at before
    refine ⟨rfl, ⟨?_, ?_⟩, UInt64.le_refl now⟩
    · rw [outstanding_read, before.1]
      rfl
    · rw [dropReports_read, before.2]
  | elapsed timer reached =>
    rw [stands] at before
    have onward : reached ≤ now := UInt64.le_trans before.2 forward
    rw [Phase.read, if_pos onward]
    refine ⟨rfl, ⟨?_, ?_⟩, UInt64.le_refl now⟩
    · rw [outstanding_read, before.1.1]
      rfl
    · rw [dropReports_read, before.1.2]
  | registered timer deadline =>
    rw [stands] at before
    have unreported : dropReports timer (world.trace ++ [(process, .nowNanos now)]) = 0 := by
      rw [dropReports_read, before.2]
    by_cases due : deadline ≤ now
    · rw [Phase.read, if_pos due]
      refine ⟨rfl, ⟨?_, unreported⟩, UInt64.le_refl now⟩
      rw [outstanding_read, before.1, Option.filter_some, if_neg (by simpa using due)]
    · rw [Phase.read, if_neg due]
      refine ⟨rfl, ?_, unreported⟩
      rw [outstanding_read, before.1, Option.filter_some, if_pos (by simpa using due)]

/-- A timer that an owner may register has this id, and was not dropped. -/
theorem status_registrable (holds : Invariant world phases)
    (registrable : (∃ reached, phases process = .elapsed timer reached) ∨ ∃ deadline,
        phases process = .registered timer deadline) :
    (phases process).timer = some timer ∧ dropReports timer world.trace = 0 := by
  have before := holds.status process
  rcases registrable with ⟨reached, stands⟩ | ⟨deadline, stands⟩
  · rw [stands] at before ⊢
    exact ⟨rfl, before.1.2⟩
  · rw [stands] at before ⊢
    exact ⟨rfl, before.2⟩

theorem Invariant.registers (holds : Invariant world phases) (deadline : UInt64)
    (registrable : (∃ reached, phases process = .elapsed timer reached) ∨ ∃ deadline,
        phases process = .registered timer deadline) :
    Invariant { world with trace := world.trace ++ [(process, .register timer deadline)] }
      (Function.update phases process (.registered timer deadline)) := by
  obtain ⟨has, unreported⟩ := status_registrable holds registrable
  refine holds.called (UInt64.le_refl _) has.symm (fun _ isNamed => isNamed) ⟨?_, ?_⟩ nofun
  · rw [outstanding_append, registrationStep, if_pos rfl]
    exact if_pos rfl
  · rw [dropReports_append, unreported]
    rfl

theorem Invariant.reports (holds : Invariant world phases) {deadline : UInt64}
    (isRegistered : phases process = .registered timer deadline) :
    Invariant { world with trace := world.trace ++ [(process, .timerDropped timer)] }
      (Function.update phases process (.reported timer)) := by
  have before := holds.status process
  rw [isRegistered] at before
  refine holds.called (UInt64.le_refl _) (isRegistered ▸ rfl) (fun _ isNamed => isNamed) ?_ fun dropped isDrop => ?_
  · change dropReports timer (world.trace ++ [(process, .timerDropped timer)]) = 1
    rw [dropReports_append, before.2, if_pos rfl]
  · obtain rfl := Call.timerDropped.inj isDrop
    exact ⟨deadline, before.1⟩

/-- The calls that concern no timer of this project. -/
theorem Invariant.kept (holds : Invariant world phases) (same : later = phases process) :
    Invariant world (Function.update phases process later) := by
  rw [same, Function.update_eq_self]
  exact holds

/-- Every effect of an owner keeps the invariant. -/
theorem timerSystem_keeps :
    System.Keeps (timerSystem : System (Effect Output) Effect.Reply Process Owner Operation (Choice Output) _) protocol
      Invariant := by
  intro world phases process effect choice reply next holds answered
  change world.answer process effect choice = some (reply, next) at answered
  have alive : phases process ≠ .impossible := by
    intro stands
    have before := holds.status process
    rw [stands] at before
    exact before
  cases effect with
  | timerHook =>
    obtain ⟨rfl, rfl⟩ := Prod.mk.inj (Option.some.inj answered)
    refine ⟨rfl, fun later _ moved => holds.kept ?_⟩
    cases stands : phases process <;> rw [stands] at moved <;> exact (Option.some.inj moved).symm
  | nextWaiter =>
    obtain ⟨rfl, rfl⟩ := Prod.mk.inj (Option.some.inj answered)
    refine ⟨trivial, fun later permitted moved => ?_⟩
    have isIdle := nextWaiter_permitted alive permitted
    change (phases process).after (.nextWaiter : Effect Output) (fetchNext world.nextWaiter).1 = _ at moved
    cases drawn : (fetchNext world.nextWaiter).1 with
    | none =>
      rw [isIdle, drawn] at moved
      rw [fetchNext_none drawn]
      exact holds.kept (isIdle ▸ (Option.some.inj moved).symm)
    | some timer =>
      rw [isIdle, drawn] at moved
      obtain rfl := Option.some.inj moved
      exact holds.took isIdle drawn
  | nowNanos hook =>
    simp only [World.answer] at answered
    split at answered
    · next forward =>
      obtain ⟨rfl, rfl⟩ := Prod.mk.inj (Option.some.inj answered)
      refine ⟨trivial, fun later permitted moved => ?_⟩
      obtain ⟨hasTimer, unreported⟩ := nowNanos_permitted alive permitted
      obtain rfl := Option.some.inj ((nowNanos_after choice.now).symm.trans moved)
      obtain ⟨sameTimer, status⟩ := status_read holds forward hasTimer unreported
      exact holds.called forward sameTimer nofun status nofun
    · cases answered
  | register hook timer deadline =>
    obtain ⟨rfl, rfl⟩ := Prod.mk.inj (Option.some.inj answered)
    refine ⟨trivial, fun later permitted moved => ?_⟩
    obtain rfl := Option.some.inj ((register_after alive).symm.trans moved)
    exact holds.registers deadline (register_permitted alive permitted)
  | timerDropped hook timer =>
    obtain ⟨rfl, rfl⟩ := Prod.mk.inj (Option.some.inj answered)
    refine ⟨trivial, fun later permitted moved => ?_⟩
    obtain rfl := Option.some.inj ((timerDropped_after alive).symm.trans moved)
    obtain ⟨deadline, isRegistered⟩ := timerDropped_permitted alive permitted
    exact holds.reports isRegistered
  | tokioSleep duration | tokioInterval duration | pollSleep sleep | pollTick interval | pollFuture
  | dropSleep sleep | dropInterval interval | dropFuture =>
    obtain ⟨rfl, rfl⟩ := Prod.mk.inj (Option.some.inj answered)
    refine ⟨trivial, fun later _ moved => holds.kept ?_⟩
    cases stands : phases process <;> rw [stands] at moved <;> exact (Option.some.inj moved).symm

/-- The owners, before any of them has a timer. -/
def absent (now nextWaiter : UInt64) :
    System.Config (Effect Output) Effect.Reply Process Owner (World Process) where
  shared := { now, nextWaiter }
  program _ := .done .absent

/-- The step does not drop an interval whose registration is outstanding. -/
def DropsNoRegisteredInterval (config : System.Config (Effect Output) Effect.Reply Process Owner (World Process))
    (action : System.Action Process Operation (Choice Output)) : Prop :=
  ∀ process interval timer, action = .start process .drop → config.program process = .done (.interval interval) →
    outstanding process timer config.shared.trace = none

/-- Every operation but the drop of a registered interval conforms. -/
theorem timerSystem_starts :
    System.StartsWhen (timerSystem : System (Effect Output) Effect.Reply Process Owner Operation (Choice Output) _)
      DropsNoRegisteredInterval protocol Phase.Rest Invariant := by
  intro config phases process operation owner program holds allowed idle started
  have rest := holds.2 process
  rw [idle] at rest
  apply start_conforms started rest
  rintro interval rfl rfl timer deadline isRegistered
  have status := holds.1.status process
  rw [isRegistered] at status
  have free := allowed process interval timer rfl idle
  rw [status.1] at free
  cases free

/-- Every registration that is outstanding for a dropped timer was taken back, once, and no other was. -/
def NoneLeaked (config : System.Config (Effect Output) Effect.Reply Process Owner (World Process)) : Prop :=
  (∀ process timer deadline, config.program process = .done .dropped →
    outstanding process timer config.shared.trace = some deadline → dropReports timer config.shared.trace = 1) ∧
  Throughout Rightful config.shared.trace

/-- **No leaked registration.** In every run of any number of timers in which no interval is dropped while its
registration is outstanding, a dropped timer leaves no registration behind, and only a registration that is
outstanding is reported as dropped. -/
theorem timers_never_leaked {now nextWaiter : UInt64}
    {actions : List (System.Action Process Operation (Choice Output))}
    {config : System.Config (Effect Output) Effect.Reply Process Owner (World Process)}
    (reached : run? timerSystem.step (absent now nextWaiter) actions = some config)
    (admitted : Along timerSystem.step DropsNoRegisteredInterval (absent now nextWaiter) actions) :
    NoneLeaked config := by
  have begins : System.Phased protocol Phase.Rest Invariant
      (absent now nextWaiter : System.Config (Effect Output) _ Process _ _) fun _ => .idle :=
    ⟨⟨nofun, nofun, nofun, fun _ => trivial, throughout_nil _⟩, fun _ => .inr rfl⟩
  obtain ⟨phases, holds, conform⟩ := System.phases_of_admitted_run timerSystem_starts timerSystem_keeps.always
    begins reached admitted
  refine ⟨fun process timer deadline isDropped isOutstanding => ?_, holds.rightful⟩
  have rest := conform process
  rw [isDropped] at rest
  have status := holds.status process
  have has := holds.owned _ (outstanding_registered isOutstanding) timer rfl
  cases stands : phases process with
  | idle | impossible =>
    rw [stands] at has
    cases has
  | registered timer' deadline' =>
    rw [stands] at rest
    rcases rest with same | unregistered
    · cases same
    · exact absurd rfl (unregistered timer' deadline')
  | drawn timer' | elapsed timer' reached' =>
    rw [stands] at has status
    obtain rfl := Option.some.inj has
    simp only [Status, isOutstanding, reduceCtorEq, false_and] at status
  | reported timer' =>
    rw [stands] at has status
    obtain rfl := Option.some.inj has
    exact status

/-- Ten nanoseconds. -/
def tenNanos : Duration := { secs := 0, nanos := 10, bounded := by decide }

/-- A sleep that is polled once and dropped. -/
def sleepDropped : List (System.Action Unit Operation (Choice Unit)) :=
  [.start () (.sleep tenNanos), .start () .poll, .advance () {}, .advance () {}, .advance () {}, .advance () {},
    .advance () {}, .start () .drop, .advance () {}]

theorem timers_never_leaked_sleep :
    ∃ config, run? timerSystem.step (absent 0 1) sleepDropped = some config ∧
      config.shared.trace = [((), .nowNanos 0), ((), .nowNanos 0), ((), .register 1 10), ((), .timerDropped 1)] ∧
      NoneLeaked config := by
  have shown : (run? timerSystem.step (absent 0 1) sleepDropped).map (fun config => config.shared.trace) =
    some [((), .nowNanos 0), ((), .nowNanos 0), ((), .register 1 10), ((), .timerDropped 1)] := by decide
  obtain ⟨config, reached, trace⟩ := Option.map_eq_some_iff.mp shown
  refine ⟨config, reached, trace, timers_never_leaked reached ?_⟩
  refine ⟨nofun, nofun, nofun, nofun, nofun, nofun, nofun, ?_, nofun, trivial⟩
  intro process interval timer _ isInterval
  cases isInterval

/-- An interval that is polled until it is pending and dropped. -/
def intervalDropped : List (System.Action Unit Operation (Choice Unit)) :=
  [.start () (.interval tenNanos), .start () .poll, .advance () {}, .advance () {}, .advance () {}, .advance () {},
    .start () .poll, .advance () {}, .advance () {}, .start () .drop]

/-- The registration of a dropped interval is left behind. -/
theorem interval_leaks :
    ¬ ∀ config, run? timerSystem.step (absent 0 1) intervalDropped = some config → NoneLeaked config := by
  intro none
  have shown : (run? timerSystem.step (absent 0 1) intervalDropped).map (fun config =>
    (config.shared.trace, config.program ())) = some ([((), .nowNanos 0), ((), .nowNanos 0), ((), .nowNanos 0),
        ((), .register 1 10)], .done .dropped) := by rfl
  obtain ⟨config, reached, same⟩ := Option.map_eq_some_iff.mp shown
  obtain ⟨trace, isDropped⟩ := Prod.mk.inj same
  have reports := (none config reached).1 () 1 10 isDropped (by rw [trace]; decide)
  rw [trace] at reports
  revert reports
  decide

end Registrations

end Laplace.Soundness.Timing
