import Laplace.Model.Timers

/-! # The schedule of the timer shadows

A hooked timer reads the clock for the first time when it is first polled, not when it is created. From that
reading on it keeps tokio's schedule: a sleep is over one duration later, a timeout gives its future the first
word at every poll, and the ticks of an interval are due one period apart, whenever they are collected.
-/

namespace Laplace.Soundness.Timing

open Laplace.Machine Laplace.Model.Timers
open Laplace.Model.Runtime (PollResult fetchNext saturatingAdd u64Max)

variable {Output Timer α : Type}

/-- Perform the effects of one poll. The clock stands still during the poll. -/
def handle (choice : Choice Output) (effect : Effect Output) (world : World Unit) :
    Option (effect.Reply × World Unit) := world.answer () effect choice

/-- What a timer answers when it is polled again and again. A poll that cannot end ends the list. -/
def pollAll (poll : Timer → TimerM Output (PollResult α × Timer)) : Timer → World Unit → List (Choice Output) →
    List (PollResult α)
  | _, _, [] => []
  | timer, world, choice :: rest =>
      match (poll timer).run (handle choice) world with
      | (some (polled, later), next) => polled :: pollAll poll later next rest
      | (none, _) => []

/-- The time has come: deadlines saturate. -/
def Due (deadline : ℕ) (now : UInt64) : Prop := min deadline u64Max ≤ now.toNat

instance (deadline : ℕ) (now : UInt64) : Decidable (Due deadline now) :=
  inferInstanceAs (Decidable (min deadline u64Max ≤ now.toNat))

theorem toNat_ofNat_min (n : ℕ) : (UInt64.ofNat (min n u64Max)).toNat = min n u64Max := by
  rw [UInt64.toNat_ofNat']
  apply Nat.mod_eq_of_lt
  simp only [u64Max]
  omega

/-- Saturating sums saturate once. -/
theorem toNat_saturatingAdd {one other : UInt64} {first second : ℕ} (isFirst : one.toNat = min first u64Max)
    (isSecond : other.toNat = min second u64Max) : (saturatingAdd one other).toNat = min (first + second) u64Max := by
  rw [saturatingAdd, toNat_ofNat_min, isFirst, isSecond]
  omega

theorem toNat_duration (duration : Duration) :
    (durationToNanosSaturating duration).toNat = min duration.asNanos u64Max := toNat_ofNat_min _

theorem toNat_self (value : UInt64) : value.toNat = min value.toNat u64Max := by
  have bound := value.toNat_lt
  simp only [u64Max]
  omega

theorem le_iff_due {deadline : UInt64} (now : UInt64) {sum : ℕ} (isSum : deadline.toNat = min sum u64Max) :
    deadline ≤ now ↔ Due sum now := by
  rw [UInt64.le_iff_toNat_le, isSum, Due]

/-- The answers of a sleep that started at this time. -/
def sleepAnswer (start : UInt64) (duration : Duration) (now : UInt64) : PollResult Unit :=
  if Due (start.toNat + duration.asNanos) now then .ready () else .pending

/-- A timeout asks its future first. -/
def timeoutAnswer (start : UInt64) (duration : Duration) (now : UInt64) : Option Output →
    PollResult (Except Elapsed Output)
  | some value => .ready (.ok value)
  | none => if Due (start.toNat + duration.asNanos) now then .ready (.error .mk) else .pending

/-- The ticks of an interval, from the one with this number on. -/
def tickAnswers (start : UInt64) (period : Duration) : ℕ → List UInt64 → List (PollResult Unit)
  | _, [] => []
  | tick, now :: rest =>
      if Due (start.toNat + tick * period.asNanos) now then .ready () :: tickAnswers start period (tick + 1) rest
      else .pending :: tickAnswers start period tick rest

/-- A poll at this time that finds the future so. -/
def withFuture (poll : UInt64 × Option Output) : Choice Output :=
  { now := poll.1, future := (poll.2.map PollResult.ready).getD .pending }

/-- One poll after the other. -/
theorem pollAll_cons (poll : Timer → TimerM Output (PollResult α × Timer)) {timer : Timer} {world : World Unit}
    {choice : Choice Output} {answer : PollResult α} {good : PollResult α × Timer → World Unit → Prop}
        (rest : List (Choice Output))
    (ensured : (poll timer).Ensures (handle choice) (fun result later => result.1 = answer ∧ good result later)
      (fun _ => False) world) :
    ∃ next later, pollAll poll timer world (choice :: rest) = answer :: pollAll poll next later rest ∧
      good (answer, next) later := by
  revert ensured
  rw [Program.Ensures, pollAll]
  rcases (poll timer).run (handle choice) world with ⟨_ | ⟨polled, next⟩, later⟩
  · exact False.elim
  · rintro ⟨rfl, isGood⟩
    exact ⟨next, later, rfl, isGood⟩

variable {post : α → World Unit → Prop} {stopped : World Unit → Prop} {choice : Choice Output} {world : World Unit}

/-- Reading the clock during a poll. -/
theorem ensures_nowNanos {hook : Hook} {next : UInt64 → TimerM Output α} (forward : world.now ≤ choice.now)
    (onward : ∀ later : World Unit, later.now = choice.now →
        (next choice.now).Ensures (handle choice) post stopped later) :
    (perform (.nowNanos hook) >>= next).Ensures (handle choice) post stopped world := by
  have handled : handle choice (.nowNanos hook) world = some (choice.now,
      { world with now := choice.now, trace := world.trace ++ [((), .nowNanos choice.now)] }) := if_pos forward
  exact (Program.ensures_call handled).mpr (onward _ rfl)

theorem ensures_register {hook : Hook} {timer deadline : UInt64} {next : Unit → TimerM Output α}
    (onward : ∀ later : World Unit, later.now = world.now → (next ()).Ensures (handle choice) post stopped later) :
    (perform (.register hook timer deadline) >>= next).Ensures (handle choice) post stopped world := by
  have handled : handle choice (.register hook timer deadline) world = some ((),
      { world with trace := world.trace ++ [((), .register timer deadline)] }) := rfl
  exact (Program.ensures_call handled).mpr (onward _ rfl)

theorem ensures_nextWaiter {timer : UInt64} {next : Option UInt64 → TimerM Output α}
    (supply : (fetchNext world.nextWaiter).1 = some timer)
    (onward : ∀ later : World Unit, later.now = world.now →
        (next (some timer)).Ensures (handle choice) post stopped later) :
    (perform .nextWaiter >>= next).Ensures (handle choice) post stopped world := by
  have handled : handle choice .nextWaiter world = some (some timer,
      { world with nextWaiter := (fetchNext world.nextWaiter).2 }) := by
    simp only [handle, World.answer, supply]
  exact (Program.ensures_call handled).mpr (onward _ rfl)

theorem ensures_timerHook {next : Option Hook → TimerM Output α}
    (onward : (next (some 0)).Ensures (handle choice) post stopped world) :
    (perform .timerHook >>= next).Ensures (handle choice) post stopped world :=
  (Program.ensures_call rfl).mpr onward

section Sleep

variable {timer deadline now : UInt64} {hook : Hook} {sleep : Sleep}

/-- A hooked sleep keeps its deadline. -/
def KeepsDeadline (timer deadline : UInt64) (sleep : Sleep) : Prop := ∃ hook,
    sleep.state = .hooked timer deadline hook

theorem sleepPollStarted_ensures (kept : KeepsDeadline timer deadline sleep) (forward : world.now ≤ choice.now) :
    (sleep.pollStarted : TimerM Output _).Ensures (handle choice)
      (fun result later => result.1 = (if deadline ≤ choice.now then .ready () else .pending) ∧
        KeepsDeadline timer deadline result.2 ∧ later.now = choice.now) (fun _ => False) world := by
  obtain ⟨state, resolved⟩ := sleep
  obtain ⟨hook, isHooked⟩ := kept
  obtain rfl : state = .hooked timer deadline hook := isHooked
  apply ensures_nowNanos forward
  intro later isNow
  by_cases due : deadline ≤ choice.now
  · simp only [if_pos due]
    exact ⟨rfl, ⟨hook, rfl⟩, isNow⟩
  · simp only [if_neg due]
    apply ensures_register
    intro last same
    exact ⟨rfl, ⟨hook, rfl⟩, same.trans isNow⟩

/-- A poll of a sleep that has started. -/
theorem sleepPoll_ensures (kept : KeepsDeadline timer deadline sleep) (forward : world.now ≤ choice.now) :
    (sleep.poll : TimerM Output _).Ensures (handle choice)
      (fun result later => result.1 = (if deadline ≤ choice.now then .ready () else .pending) ∧
        KeepsDeadline timer deadline result.2 ∧ later.now = choice.now) (fun _ => False) world := by
  have started : (sleep.start : TimerM Output _) = .done (some sleep) := by
    obtain ⟨hook, isHooked⟩ := kept
    rw [Sleep.start, isHooked]
    rfl
  rw [Sleep.poll, started]
  exact sleepPollStarted_ensures kept forward

/-- The first poll of a sleep. -/
theorem sleepFirst_ensures {duration : Duration} (forward : world.now ≤ choice.now)
    (supply : (fetchNext world.nextWaiter).1 = some timer)
    (isDeadline : deadline = saturatingAdd choice.now (durationToNanosSaturating duration)) :
    ((Laplace.Model.Timers.sleep duration).poll : TimerM Output _).Ensures (handle choice)
      (fun result later => result.1 = (if deadline ≤ choice.now then .ready () else .pending) ∧
        KeepsDeadline timer deadline result.2 ∧ later.now = choice.now) (fun _ => False) world := by
  apply ensures_timerHook
  apply ensures_nextWaiter supply
  intro world' same
  apply ensures_nowNanos (by rwa [same])
  intro later isNow
  subst isDeadline
  exact sleepPollStarted_ensures ⟨0, rfl⟩ (isNow ▸ UInt64.le_refl _)

/-- The answers of a sleep that has started. -/
theorem sleep_polls (kept : KeepsDeadline timer deadline sleep) {times : List UInt64}
    (sorted : times.Pairwise (· ≤ ·))
    (notBefore : ∀ now ∈ times, world.now ≤ now) :
    pollAll Sleep.poll sleep world (times.map fun now => ({ now } : Choice Output)) =
      times.map fun now => if deadline ≤ now then .ready () else .pending := by
  induction times generalizing sleep world with
  | nil => rfl
  | cons now rest ih =>
    rw [List.pairwise_cons] at sorted
    have forward := notBefore now List.mem_cons_self
    have ensured : (sleep.poll : TimerM Output _).Ensures (handle { now }) _ _ world := sleepPoll_ensures kept forward
    obtain ⟨next, later, answered, kept', isNow⟩ := pollAll_cons Sleep.poll (rest.map fun now => { now }) ensured
    rw [List.map_cons, answered, List.map_cons]
    congr 1
    apply ih kept' sorted.2
    intro other member
    rw [isNow]
    exact sorted.1 other member

/-- The deadline that the first poll of a sleep fixes. -/
theorem firstDeadline (start : UInt64) (duration : Duration) :
    (saturatingAdd start (durationToNanosSaturating duration)).toNat = min (start.toNat + duration.asNanos) u64Max :=
  toNat_saturatingAdd (toNat_self start) (toNat_duration duration)

theorem sleep_schedule (duration : Duration) {start : UInt64} {times : List UInt64}
    (sorted : (start :: times).Pairwise (· ≤ ·)) (forward : world.now ≤ start)
    (supply : (fetchNext world.nextWaiter).1 = some timer) :
    pollAll Sleep.poll (Laplace.Model.Timers.sleep duration) world
        ((start :: times).map fun now => ({ now } : Choice Output)) =
      (start :: times).map (sleepAnswer start duration) := by
  have decided : ∀ now, (if saturatingAdd start (durationToNanosSaturating duration) ≤ now then PollResult.ready () else .pending) =
      sleepAnswer start duration now := by
    intro now
    simp only [sleepAnswer, le_iff_due _ (firstDeadline start duration)]
  rw [List.pairwise_cons] at sorted
  have ensured : ((Laplace.Model.Timers.sleep duration).poll : TimerM Output _).Ensures
    (handle { now := start }) _ _ world :=
    sleepFirst_ensures forward supply rfl
  obtain ⟨next, later, answered, kept, isNow⟩ := pollAll_cons Sleep.poll (times.map fun now => { now }) ensured
  have notBefore : ∀ now ∈ times, later.now ≤ now := by
    intro now member
    rw [isNow]
    exact sorted.1 now member
  rw [List.map_cons, answered, sleep_polls kept sorted.2 notBefore, List.map_cons, decided]
  simp only [decided]

end Sleep

section Timeout

variable {timer deadline : UInt64} {timeout : Timeout}

/-- The answer of a timeout whose delay ends at this time. -/
def timeoutDecides (deadline : UInt64) (poll : UInt64 × Option Output) : PollResult (Except Elapsed Output) :=
  match poll.2 with
  | some value => .ready (.ok value)
  | none => if deadline ≤ poll.1 then .ready (.error .mk) else .pending

/-- A poll that finds the future ready leaves the delay alone. -/
theorem timeoutReady_ensures (now : UInt64) (value : Output) :
    timeout.poll.Ensures (handle (withFuture (now, some value)))
      (fun result later => result.1 = .ready (.ok value) ∧ result.2 = timeout ∧
          later = world) (fun _ => False) world := by
  have handled : handle (withFuture (now, some value)) .pollFuture world = some (.ready value, world) := rfl
  exact (Program.ensures_call handled).mpr ⟨rfl, rfl, rfl⟩

/-- A poll that finds the future pending polls the delay. -/
theorem timeoutPending_ensures {now : UInt64}
    (delayed : timeout.delay.poll.Ensures (handle (withFuture (now, (none : Option Output))))
      (fun result later => result.1 = (if deadline ≤ now then .ready () else .pending) ∧
        KeepsDeadline timer deadline result.2 ∧ later.now = now) (fun _ => False) world) :
    timeout.poll.Ensures (handle (withFuture (now, (none : Option Output))))
      (fun result later => result.1 = timeoutDecides deadline (now, none) ∧
        KeepsDeadline timer deadline result.2.delay ∧ later.now = now) (fun _ => False) world := by
  refine (Program.ensures_call rfl).mpr ?_
  apply delayed.bind
  rintro ⟨polled, delay⟩ later ⟨isPolled, kept, isNow⟩
  obtain rfl : polled = _ := isPolled
  by_cases due : deadline ≤ now
  · simp only [timeoutDecides, if_pos due]
    exact ⟨rfl, kept, isNow⟩
  · simp only [timeoutDecides, if_neg due]
    exact ⟨rfl, kept, isNow⟩

/-- The answers of a timeout whose delay has started. -/
theorem timeout_polls (kept : KeepsDeadline timer deadline timeout.delay) {polls : List (UInt64 × Option Output)}
    (sorted : (polls.map Prod.fst).Pairwise (· ≤ ·)) (notBefore : ∀ now ∈ polls.map Prod.fst, world.now ≤ now) :
    pollAll Timeout.poll timeout world (polls.map withFuture) = polls.map (timeoutDecides deadline) := by
  induction polls generalizing timeout world with
  | nil => rfl
  | cons poll rest ih =>
    obtain ⟨now, future⟩ := poll
    rw [List.map_cons, List.pairwise_cons] at sorted
    have forward : world.now ≤ now := notBefore now List.mem_cons_self
    cases future with
    | some value =>
      have ensured : timeout.poll.Ensures (handle (withFuture (now, some value))) _ _ world :=
        timeoutReady_ensures now value
      obtain ⟨next, later, answered, same, isSame⟩ := pollAll_cons Timeout.poll (rest.map withFuture) ensured
      rw [List.map_cons, answered, List.map_cons]
      congr 1
      obtain rfl : next = timeout := same
      exact ih kept sorted.2 fun other member => isSame ▸ UInt64.le_trans forward (sorted.1 other member)
    | none =>
      have ensured : timeout.poll.Ensures (handle (withFuture (now, (none : Option Output)))) _ _ world :=
        timeoutPending_ensures (sleepPoll_ensures kept forward)
      obtain ⟨next, later, answered, kept', isNow⟩ := pollAll_cons Timeout.poll (rest.map withFuture) ensured
      rw [List.map_cons, answered, List.map_cons]
      congr 1
      apply ih kept' sorted.2
      intro other member
      rw [isNow]
      exact sorted.1 other member

/-- The future is pending at every poll but perhaps the last one. -/
theorem timeout_schedule (duration : Duration) {start : UInt64} {future : Option Output}
    {polls : List (UInt64 × Option Output)} (sorted : (((start, future) :: polls).map Prod.fst).Pairwise (· ≤ ·))
    (unresolved : ∀ poll ∈ ((start, future) :: polls).dropLast, poll.2 = none) (forward : world.now ≤ start)
    (supply : (fetchNext world.nextWaiter).1 = some timer) :
    pollAll Timeout.poll (Laplace.Model.Timers.timeout duration) world (((start, future) :: polls).map withFuture) =
      ((start, future) :: polls).map fun poll => timeoutAnswer start duration poll.1 poll.2 := by
  have decided : ∀ poll : UInt64 × Option Output,
      timeoutDecides (saturatingAdd start (durationToNanosSaturating duration)) poll =
        timeoutAnswer start duration poll.1 poll.2 := by
    rintro ⟨now, _ | value⟩
    · simp only [timeoutDecides, timeoutAnswer, le_iff_due _ (firstDeadline start duration)]
    · rfl
  cases future with
  | some value =>
    -- The future was ready at once, so that this is the only poll.
    have single : polls = [] := by
      cases polls with
      | nil => rfl
      | cons poll rest => cases unresolved _ List.mem_cons_self
    rw [single]
    rfl
  | none =>
    rw [List.map_cons, List.pairwise_cons] at sorted
    have ensured : (Laplace.Model.Timers.timeout duration).poll.Ensures
        (handle (withFuture (start, (none : Option Output)))) _ _ world :=
      timeoutPending_ensures (sleepFirst_ensures forward supply rfl)
    obtain ⟨next, later, answered, kept, isNow⟩ := pollAll_cons Timeout.poll (polls.map withFuture) ensured
    have notBefore : ∀ now ∈ polls.map Prod.fst, later.now ≤ now := by
      intro now member
      rw [isNow]
      exact sorted.1 now member
    rw [List.map_cons, answered, timeout_polls kept sorted.2 notBefore, List.map_cons]
    simp only [withFuture, decided]
    congr 1
    exact List.map_congr_left fun poll _ => decided poll

end Timeout

section Interval

variable {timer start : UInt64} {period : Duration} {interval : Interval} {tick : ℕ}

/-- A hooked interval that has this tick before it. -/
def Awaits (timer start : UInt64) (period : Duration) (tick : ℕ) (interval : Interval) : Prop :=
  ∃ periodNanos deadline hook, interval.state = .hooked timer periodNanos deadline hook ∧
    periodNanos.toNat = min period.asNanos u64Max ∧
    deadline.toNat = min (start.toNat + tick * period.asNanos) u64Max

theorem intervalPollStarted_ensures (awaits : Awaits timer start period tick interval)
    (forward : world.now ≤ choice.now) :
    (interval.pollStarted : TimerM Output _).Ensures (handle choice)
      (fun result later => result.1 = (if Due (start.toNat + tick * period.asNanos) choice.now then .ready () else .pending) ∧
        Awaits timer start period
          (if Due (start.toNat + tick * period.asNanos) choice.now then tick + 1 else tick) result.2 ∧
        later.now = choice.now) (fun _ => False) world := by
  obtain ⟨state⟩ := interval
  obtain ⟨periodNanos, deadline, hook, isHooked, isPeriod, isDeadline⟩ := awaits
  obtain rfl : state = .hooked timer periodNanos deadline hook := isHooked
  apply ensures_nowNanos forward
  intro later isNow
  have decides := le_iff_due choice.now isDeadline
  by_cases due : Due (start.toNat + tick * period.asNanos) choice.now
  · simp only [if_pos due, if_pos (decides.mpr due)]
    refine ⟨rfl, ⟨periodNanos, _, hook, rfl, isPeriod, ?_⟩, isNow⟩
    rw [toNat_saturatingAdd isDeadline isPeriod, Nat.add_one_mul, Nat.add_assoc]
  · simp only [if_neg due, if_neg (mt decides.mp due)]
    apply ensures_register
    intro last same
    exact ⟨rfl, ⟨periodNanos, deadline, hook, rfl, isPeriod, isDeadline⟩, same.trans isNow⟩

theorem intervalPoll_ensures (awaits : Awaits timer start period tick interval) (forward : world.now ≤ choice.now) :
    (interval.pollTick : TimerM Output _).Ensures (handle choice)
      (fun result later => result.1 = (if Due (start.toNat + tick * period.asNanos) choice.now then .ready () else .pending) ∧
        Awaits timer start period
          (if Due (start.toNat + tick * period.asNanos) choice.now then tick + 1 else tick) result.2 ∧
        later.now = choice.now) (fun _ => False) world := by
  have started : (interval.start : TimerM Output _) = .done (some interval) := by
    obtain ⟨periodNanos, deadline, hook, isHooked, -⟩ := awaits
    rw [Interval.start, isHooked]
    rfl
  rw [Interval.pollTick, started]
  exact intervalPollStarted_ensures awaits forward

/-- The answers of an interval that has started. -/
theorem interval_polls (awaits : Awaits timer start period tick interval) {times : List UInt64}
    (sorted : times.Pairwise (· ≤ ·)) (notBefore : ∀ now ∈ times, world.now ≤ now) :
    pollAll Interval.pollTick interval world (times.map fun now => ({ now } : Choice Output)) =
      tickAnswers start period tick times := by
  induction times generalizing interval world tick with
  | nil => rfl
  | cons now rest ih =>
    rw [List.pairwise_cons] at sorted
    have ensured : (interval.pollTick : TimerM Output _).Ensures (handle { now }) _ _ world :=
      intervalPoll_ensures awaits (notBefore now List.mem_cons_self)
    obtain ⟨next, later, answered, awaits', isNow⟩ :=
        pollAll_cons Interval.pollTick (rest.map fun now => { now }) ensured
    have notBefore' : ∀ other ∈ rest, later.now ≤ other := by
      intro other member
      rw [isNow]
      exact sorted.1 other member
    rw [List.map_cons, answered, ih awaits' sorted.2 notBefore', tickAnswers]
    split <;> rfl

theorem interval_schedule (isInterval : Laplace.Model.Timers.interval period = some interval) {times : List UInt64}
    (sorted : (start :: times).Pairwise (· ≤ ·)) (forward : world.now ≤ start)
    (supply : (fetchNext world.nextWaiter).1 = some timer) :
    pollAll Interval.pollTick interval world ((start :: times).map fun now => ({ now } : Choice Output)) =
      tickAnswers start period 0 (start :: times) := by
  obtain rfl : interval = { state := .unstarted period } := by
    unfold Laplace.Model.Timers.interval at isInterval
    split at isInterval
    · exact (Option.some.inj isInterval).symm
    · cases isInterval
  rw [List.pairwise_cons] at sorted
  have awaits : Awaits timer start period 0 { state := .hooked timer (durationToNanosSaturating period) start 0 } := by
    refine ⟨_, _, _, rfl, toNat_duration period, ?_⟩
    rw [Nat.zero_mul, Nat.add_zero]
    exact toNat_self start
  have ensured : (Interval.pollTick { state := .unstarted period } : TimerM Output _).Ensures (handle { now := start })
      (fun result later => result.1 = (if Due (start.toNat + 0 * period.asNanos) start then .ready () else .pending) ∧
        Awaits timer start period (if Due (start.toNat + 0 * period.asNanos) start then 0 + 1 else 0) result.2 ∧
        later.now = start) (fun _ => False) world := by
    apply ensures_timerHook
    apply ensures_nextWaiter supply
    intro world' same
    apply ensures_nowNanos (by rwa [same])
    intro later isNow
    exact intervalPollStarted_ensures awaits (isNow ▸ UInt64.le_refl _)
  obtain ⟨next, later, answered, awaits', isNow⟩ :=
      pollAll_cons Interval.pollTick (times.map fun now => { now }) ensured
  have notBefore : ∀ other ∈ times, later.now ≤ other := by
    intro other member
    rw [isNow]
    exact sorted.1 other member
  rw [List.map_cons, answered, interval_polls awaits' sorted.2 notBefore, tickAnswers]
  split <;> rfl

end Interval

/-- **Schedule from the first poll.** Polled at any times that do not go back, a hooked sleep, timeout and
interval answer as tokio's do that start at the first poll: the sleep is ready once its duration has passed, the
timeout returns the value of its future if there is one and has elapsed otherwise, and the tick `k` of the
interval is delivered once `k` periods have passed. -/
theorem timers_follow_first_poll (duration period : Duration) (interval : Interval)
    (isInterval : Laplace.Model.Timers.interval period = some interval) (start : UInt64) {timer : UInt64}
        (world : World Unit)
    (forward : world.now ≤ start) (supply : (fetchNext world.nextWaiter).1 = some timer) :
    (∀ times : List UInt64, (start :: times).Pairwise (· ≤ ·) →
      pollAll Sleep.poll (sleep duration) world ((start :: times).map fun now => ({ now } : Choice Output)) =
        (start :: times).map (sleepAnswer start duration)) ∧
    (∀ (future : Option Output) (polls : List (UInt64 × Option Output)),
      (((start, future) :: polls).map Prod.fst).Pairwise (· ≤ ·) →
      (∀ poll ∈ ((start, future) :: polls).dropLast, poll.2 = none) →
      pollAll Timeout.poll (timeout duration) world (((start, future) :: polls).map withFuture) =
        ((start, future) :: polls).map fun poll => timeoutAnswer start duration poll.1 poll.2) ∧
    ∀ times : List UInt64, (start :: times).Pairwise (· ≤ ·) →
      pollAll Interval.pollTick interval world ((start :: times).map fun now => ({ now } : Choice Output)) =
        tickAnswers start period 0 (start :: times) :=
  ⟨fun _ sorted => sleep_schedule duration sorted forward supply,
    fun _ _ sorted unresolved => timeout_schedule duration sorted unresolved forward supply,
    fun _ sorted => interval_schedule isInterval sorted forward supply⟩

/-- Three nanoseconds. -/
def threeNanos : Duration := { secs := 0, nanos := 3, bounded := by decide }

/-- An interval that is polled late twice delivers the missed tick at once. -/
theorem timers_follow_first_poll_burst :
    pollAll Interval.pollTick { state := .unstarted threeNanos } {} ([5, 11, 11, 11].map fun now => ({ now } :
        Choice Unit)) =
      [.ready (), .ready (), .ready (), .pending] := by
  have followed : pollAll Interval.pollTick _ _ ([5, 11, 11, 11].map fun now => ({ now } : Choice Unit)) = _ :=
    (timers_follow_first_poll threeNanos threeNanos { state := .unstarted threeNanos } (by decide) 5 {} (by decide)
      rfl).2.2 [11, 11, 11] (by decide)
  rw [followed]
  decide

/-- A sleep of three nanoseconds that is created at time zero and first polled at time five is not ready there. -/
theorem sleep_starts_late :
    pollAll Sleep.poll (sleep threeNanos) { now := 0 } [({ now := 5 } :
        Choice Unit)] ≠ [sleepAnswer 0 threeNanos 5] := by
  decide

end Laplace.Soundness.Timing
