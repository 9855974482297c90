import Laplace.Soundness.RuntimeRuns
import Laplace.Soundness.TimerSchedule

/-! # Bursts of a hooked interval

An interval is polled any number of times against one hook, whose clock is read anew by every call and never
goes back; the first poll reads it twice. What an interval has delivered so far fixes its next deadline, however
late the polls were, and the deadline in turn bounds what was delivered. A poll that finds no id left panics
before it reads the clock, and leaves the interval as it was.
-/

namespace Laplace.Soundness.Timing

open Laplace.Machine Laplace.Model.Timers
open Laplace.Model.Runtime (PollResult fetchNext saturatingAdd u64Max)

/-- The readings of a virtual clock, in the order in which they are taken. -/
structure Clock where
  reading : ℕ → UInt64
  forward : ∀ {earlier later}, earlier ≤ later → reading earlier ≤ reading later

/-- How many readings have been taken, and the id supply. -/
structure Supply where
  taken : ℕ := 0
  nextWaiter : UInt64 := 1

/-- One hook stays installed. An interval that found it calls nothing else. -/
def Clock.answer (clock : Clock) :
    (effect : Effect Unit) → Supply → Option (effect.Reply × Supply)
  | .timerHook, supply => some (some 0, supply)
  | .nextWaiter, supply =>
      some ((fetchNext supply.nextWaiter).1, { supply with nextWaiter := (fetchNext supply.nextWaiter).2 })
  | .nowNanos _, supply => some (clock.reading supply.taken, { supply with taken := supply.taken + 1 })
  | .register .., supply => some ((), supply)
  | _, _ => none

/-- An interval between two polls. -/
structure Polling where
  interval : Interval
  supply : Supply
  /-- The ticks delivered so far. -/
  ticks : ℕ := 0
  /-- What the last poll answered. -/
  last : Option (PollResult Unit) := none

def PollResult.isReady : PollResult Unit → Bool
  | .ready _ => true
  | _ => false

/-- One call of `poll_tick`. -/
def Polling.poll (clock : Clock) (polling : Polling) : Polling :=
  match polling.interval.pollTick.run clock.answer polling.supply with
  | (some (answer, interval), supply) =>
      { interval, supply, ticks := polling.ticks + (PollResult.isReady answer).toNat, last := some answer }
  | (none, _) => polling

/-- This many calls, one after the other. -/
def Polling.pollMany (clock : Clock) (polling : Polling) : ℕ → Polling
  | 0 => polling
  | calls + 1 => (polling.pollMany clock calls).poll clock

variable {clock : Clock} {polling : Polling} {timer periodNanos deadline : UInt64} {hook : Hook} {period : Duration}

/-- A poll of an interval that has started: due, it moves its deadline; early, it registers it. -/
theorem poll_hooked (isHooked : polling.interval.state = .hooked timer periodNanos deadline hook) :
    polling.poll clock =
      if deadline ≤ clock.reading polling.supply.taken then
        { interval := ⟨.hooked timer periodNanos (saturatingAdd deadline periodNanos) hook⟩
          supply := { polling.supply with taken := polling.supply.taken + 1 }
          ticks := polling.ticks + 1
          last := some (.ready ()) }
      else
        { polling with
          supply := { polling.supply with taken := polling.supply.taken + 1 }
          last := some .pending } := by
  obtain ⟨⟨state⟩, supply, ticks, last⟩ := polling
  obtain rfl : state = _ := isHooked
  by_cases due : deadline ≤ clock.reading supply.taken
  · simp only [if_pos due]
    simp [Polling.poll, Interval.pollTick, Interval.start, Interval.pollStarted, Program.perform, Program.run,
      Clock.answer, due, PollResult.isReady]
  · simp only [if_neg due]
    simp [Polling.poll, Interval.pollTick, Interval.start, Interval.pollStarted, Program.perform, Program.run,
      Clock.answer, due, PollResult.isReady]

/-- The first poll, where an id is left: the clock is read twice, and the tick of the first reading is due. -/
theorem poll_unstarted (unstarted : polling.interval.state = .unstarted period)
    (supplied : (fetchNext polling.supply.nextWaiter).1 = some timer) :
    polling.poll clock =
      { interval := ⟨.hooked timer (durationToNanosSaturating period)
          (saturatingAdd (clock.reading polling.supply.taken) (durationToNanosSaturating period)) 0⟩
        supply := ⟨polling.supply.taken + 2, (fetchNext polling.supply.nextWaiter).2⟩
        ticks := polling.ticks + 1
        last := some (.ready ()) } := by
  obtain ⟨⟨state⟩, supply, ticks, last⟩ := polling
  obtain rfl : state = _ := unstarted
  have due : clock.reading supply.taken ≤ clock.reading (supply.taken + 1) := clock.forward (Nat.le_succ _)
  simp [Polling.poll, Interval.pollTick, Interval.start, Interval.pollStarted, Program.perform, Program.run,
    Clock.answer, supplied, due, PollResult.isReady]

/-- The first poll, where no id is left. -/
theorem poll_exhausted (unstarted : polling.interval.state = .unstarted period)
    (exhausted : (fetchNext polling.supply.nextWaiter).1 = none) :
    polling.poll clock =
      { polling with
        supply := { polling.supply with nextWaiter := (fetchNext polling.supply.nextWaiter).2 }
        last := some .panicked } := by
  obtain ⟨⟨state⟩, supply, ticks, last⟩ := polling
  obtain rfl : state = _ := unstarted
  simp [Polling.poll, Interval.pollTick, Interval.start, Program.perform, Program.run, Clock.answer, exhausted,
    PollResult.isReady]

/-! ## The invariant of the polls -/

/-- The period in nanoseconds, as far as the clock can tell. -/
def periodOf (period : Duration) : ℕ := min period.asNanos u64Max

/-- A started interval: its deadline follows from the first reading and the ticks delivered. -/
structure Started (clock : Clock) (first : ℕ) (period : Duration) (polling : Polling) : Prop where
  state : ∃ timer periodNanos deadline hook, polling.interval.state = .hooked timer periodNanos deadline hook ∧
    periodNanos.toNat = periodOf period ∧
    deadline.toNat = min ((clock.reading first).toNat + polling.ticks * periodOf period) u64Max
  taken : first < polling.supply.taken
  /-- The last tick was due when it was delivered. -/
  ticked : ∃ before, polling.ticks = before + 1 ∧
    min ((clock.reading first).toNat + before * periodOf period) u64Max ≤
      (clock.reading (polling.supply.taken - 1)).toNat
  pending : polling.last = some .pending →
    (clock.reading (polling.supply.taken - 1)).toNat <
      min ((clock.reading first).toNat + polling.ticks * periodOf period) u64Max

/-- Before its first successful poll an interval has read no clock and delivered nothing. -/
structure Unstarted (first : ℕ) (period : Duration) (polling : Polling) : Prop where
  state : polling.interval.state = .unstarted period
  taken : polling.supply.taken = first
  ticks : polling.ticks = 0
  last : polling.last = none ∨ polling.last = some .panicked

theorem toNat_next {sum : ℕ} (isDeadline : deadline.toNat = min sum u64Max)
    (isPeriod : periodNanos.toNat = periodOf period) :
    (saturatingAdd deadline periodNanos).toNat = min (sum + periodOf period) u64Max := by
  apply toNat_saturatingAdd isDeadline
  rw [isPeriod, periodOf]
  omega

/-- What one poll does to a started interval. -/
theorem Started.poll {first : ℕ} (started : Started clock first period polling) :
    Started clock first period (polling.poll clock) := by
  obtain ⟨timer, periodNanos, deadline, hook, isHooked, isPeriod, isDeadline⟩ := started.state
  obtain ⟨before, isNext, wasDue⟩ := started.ticked
  have later := started.taken
  rw [poll_hooked isHooked]
  by_cases due : deadline ≤ clock.reading polling.supply.taken
  · rw [if_pos due]
    have reached := UInt64.le_iff_toNat_le.mp due
    rw [isDeadline] at reached
    constructor
    · refine ⟨timer, periodNanos, _, hook, rfl, isPeriod, ?_⟩
      rw [toNat_next isDeadline isPeriod, Nat.add_one_mul, Nat.add_assoc]
    · exact Nat.lt_succ_of_lt later
    · exact ⟨polling.ticks, rfl, reached⟩
    · intro pending
      cases pending
  · rw [if_neg due]
    have early := Nat.lt_of_not_le (mt UInt64.le_iff_toNat_le.mpr due)
    rw [isDeadline] at early
    have forward := UInt64.le_iff_toNat_le.mp
      (clock.forward (show polling.supply.taken - 1 ≤ polling.supply.taken by omega))
    constructor
    · exact ⟨timer, periodNanos, deadline, hook, isHooked, isPeriod, isDeadline⟩
    · exact Nat.lt_succ_of_lt later
    · exact ⟨before, isNext, wasDue.trans forward⟩
    · intro _
      exact early

/-- The first poll starts the interval, where an id is left. -/
theorem Unstarted.poll {first : ℕ} (unstarted : Unstarted first period polling)
    (supplied : (fetchNext polling.supply.nextWaiter).1 = some timer) :
    Started clock first period (polling.poll clock) := by
  rw [poll_unstarted unstarted.state supplied]
  have isFirst := unstarted.taken
  have isPeriod : (durationToNanosSaturating period).toNat = periodOf period := toNat_duration period
  constructor
  · refine ⟨timer, _, _, 0, rfl, isPeriod, ?_⟩
    rw [toNat_next (toNat_self _) isPeriod, isFirst, unstarted.ticks, Nat.zero_add, Nat.one_mul]
  · simp only [isFirst]
    omega
  · refine ⟨0, by rw [unstarted.ticks], ?_⟩
    have forward := UInt64.le_iff_toNat_le.mp (clock.forward (show first ≤ first + 2 - 1 by omega))
    simp only [isFirst, Nat.zero_mul, Nat.add_zero]
    exact (Nat.min_le_left _ _).trans forward
  · intro pending
    cases pending

/-- Where an id is left, every call but none has started the interval. -/
theorem started_of_pollMany (clock : Clock) {first : ℕ} (unstarted : Unstarted first period polling)
    (supplied : (fetchNext polling.supply.nextWaiter).1 = some timer) (calls : ℕ) :
    Started clock first period (polling.pollMany clock (calls + 1)) := by
  induction calls with
  | zero => exact unstarted.poll supplied
  | succ calls ih => exact ih.poll

/-- Where no id is left, no call starts it. -/
theorem unstarted_of_pollMany (clock : Clock) {first : ℕ} (unstarted : Unstarted first period polling)
    (exhausted : (fetchNext polling.supply.nextWaiter).1 = none) (calls : ℕ) :
    Unstarted first period (polling.pollMany clock calls) ∧
      (polling.pollMany clock calls).supply.nextWaiter = polling.supply.nextWaiter := by
  induction calls with
  | zero => exact ⟨unstarted, rfl⟩
  | succ calls ih =>
    obtain ⟨waiting, kept⟩ := ih
    have none_left : (fetchNext (polling.pollMany clock calls).supply.nextWaiter).1 = none := by rw [kept, exhausted]
    rw [Polling.pollMany, poll_exhausted waiting.state none_left]
    exact ⟨⟨waiting.state, waiting.taken, waiting.ticks, .inr rfl⟩, (fetchNext_none none_left).trans kept⟩

/-- The ticks delivered, counted by the last reading. -/
theorem Started.ticks_le {first : ℕ} (started : Started clock first period polling) (positive : 0 < periodOf period)
    (below : (clock.reading first).toNat + polling.ticks * periodOf period < u64Max) :
    polling.ticks ≤ ((clock.reading (polling.supply.taken - 1)).toNat - (clock.reading first).toNat) /
      periodOf period + 1 := by
  obtain ⟨before, isNext, wasDue⟩ := started.ticked
  rw [isNext] at below ⊢
  rw [Nat.add_one_mul] at below
  apply Nat.succ_le_succ
  rw [Nat.le_div_iff_mul_le positive]
  omega

/-- After a poll that was too early, no tick that was due is missing. -/
theorem Started.le_ticks {first : ℕ} (started : Started clock first period polling) (positive : 0 < periodOf period)
    (pending : polling.last = some .pending) :
    ((clock.reading (polling.supply.taken - 1)).toNat - (clock.reading first).toNat) / periodOf period + 1 ≤
      polling.ticks := by
  have early := started.pending pending
  obtain ⟨before, isNext, -⟩ := started.ticked
  have some : 0 < polling.ticks * periodOf period := Nat.mul_pos (by omega) positive
  apply Nat.succ_le_of_lt
  rw [Nat.div_lt_iff_lt_mul positive]
  omega

/-- An interval that found a hook: its deadline is exact, the clock alone decides the next poll, and the ticks
delivered are those of the schedule. -/
structure Bursts (clock : Clock) (first : ℕ) (period : Duration) (polling : Polling) : Prop where
  exact_deadline : ∃ timer periodNanos deadline hook,
    polling.interval.state = .hooked timer periodNanos deadline hook ∧ periodNanos.toNat = periodOf period ∧
    deadline.toNat = min ((clock.reading first).toNat + polling.ticks * periodOf period) u64Max ∧
    (polling.poll clock).last =
      some (if deadline ≤ clock.reading polling.supply.taken then .ready () else .pending)
  counted : (clock.reading first).toNat + polling.ticks * periodOf period < u64Max →
    polling.ticks ≤ ((clock.reading (polling.supply.taken - 1)).toNat - (clock.reading first).toNat) /
        periodOf period + 1 ∧
      (polling.last = some .pending →
        polling.ticks = ((clock.reading (polling.supply.taken - 1)).toNat - (clock.reading first).toNat) /
          periodOf period + 1)

theorem Started.bursts {first : ℕ} (started : Started clock first period polling) (positive : 0 < periodOf period) :
    Bursts clock first period polling := by
  constructor
  · obtain ⟨timer, periodNanos, deadline, hook, isHooked, isPeriod, isDeadline⟩ := started.state
    refine ⟨timer, periodNanos, deadline, hook, isHooked, isPeriod, isDeadline, ?_⟩
    rw [poll_hooked isHooked]
    by_cases due : deadline ≤ clock.reading polling.supply.taken
    · simp only [if_pos due]
    · simp only [if_neg due]
  · intro below
    have most := started.ticks_le positive below
    exact ⟨most, fun pending => Nat.le_antisymm most (started.le_ticks positive pending)⟩

/-- **Burst law.** Poll an interval any number of times, whatever the clock reads as long as it never goes back.
Where an id is left for its timer, the first poll delivers a tick at once, and from then on the deadline is exactly
the first reading plus one period for each delivered tick, saturating once, the next poll is ready exactly from
that deadline on, and the ticks delivered are at most, and after a pending poll exactly, those that were due. Where
none is left, every poll panics, and nothing is read or delivered. -/
theorem interval_bursts_exact (clock : Clock) {period : Duration} {interval : Interval}
    (made : Laplace.Model.Timers.interval period = some interval) (supply : Supply) (calls : ℕ) :
    let polled := ({ interval, supply } : Polling).pollMany clock calls
    ((fetchNext supply.nextWaiter).1 ≠ none →
      (calls = 0 → Unstarted supply.taken period polled ∧ (polled.poll clock).last = some (.ready ())) ∧
      (0 < calls → Bursts clock supply.taken period polled)) ∧
    ((fetchNext supply.nextWaiter).1 = none →
      Unstarted supply.taken period polled ∧ (polled.poll clock).last = some .panicked) := by
  have isPeriodic : 0 < period.asNanos ∧ interval = { state := .unstarted period } := by
    unfold Laplace.Model.Timers.interval at made
    split at made
    · exact ⟨‹_›, (Option.some.inj made).symm⟩
    · cases made
  obtain ⟨nonzero, rfl⟩ := isPeriodic
  have positive : 0 < periodOf period := by
    simp only [periodOf, u64Max]
    omega
  have unstarted : Unstarted supply.taken period { interval := { state := .unstarted period }, supply } :=
    ⟨rfl, rfl, rfl, .inl rfl⟩
  refine ⟨fun left => ?_, fun exhausted => ?_⟩
  · obtain ⟨timer, supplied⟩ := Option.ne_none_iff_exists'.mp left
    refine ⟨?_, fun some => ?_⟩
    · rintro rfl
      exact ⟨unstarted, by rw [Polling.pollMany, poll_unstarted unstarted.state supplied]⟩
    · obtain ⟨before, rfl⟩ := Nat.exists_eq_add_one.mpr some
      exact (started_of_pollMany clock unstarted supplied before).bursts positive
  · obtain ⟨waiting, kept⟩ := unstarted_of_pollMany clock unstarted exhausted calls
    refine ⟨waiting, ?_⟩
    rw [poll_exhausted waiting.state (by rw [kept, exhausted])]

/-- A clock that reads 5, then 11 for ever. -/
def lateClock : Clock where
  reading taken := if taken = 0 then 5 else 11
  forward := by
    intro earlier later ordered
    by_cases first : earlier = 0
    · subst first
      by_cases same : later = 0
      · subst same
        exact UInt64.le_refl _
      · simp only [if_neg same]
        decide
    · have second : later ≠ 0 := by omega
      simp only [if_neg first, if_neg second]
      exact UInt64.le_refl _

/-- Three nanoseconds apart, first read at 5 and then at 11: three ticks at once, and no fourth. -/
theorem interval_bursts_exact_late :
    let polled := ({ interval := { state := .unstarted threeNanos }, supply := {} } : Polling).pollMany lateClock 4
    polled.ticks = 3 ∧ polled.last = some .pending ∧ Bursts lateClock 0 threeNanos polled := by
  have made : Laplace.Model.Timers.interval threeNanos = some { state := .unstarted threeNanos } := by decide
  have exact_bursts := interval_bursts_exact lateClock made {} 4
  exact ⟨by decide, by decide, (exact_bursts.1 (by decide)).2 (by decide)⟩

end Laplace.Soundness.Timing
