import Laplace.Model.Runtime

/-! # The timer shadows

`sleep`, `timeout` and `interval` against a virtual clock. A timer decides at its first poll whether a hook
is installed, and keeps the hook it found; only then does it draw its id and read the clock. Without a hook
it builds the real tokio timer and delegates to it.

An owner polls a timer any number of times and drops it. A poll may panic, in the id supply or in the future
inside a `Timeout`, and leaves the timer to its owner.
-/

namespace Laplace.Model.Timers

open Laplace.Machine
open Laplace.Model.Runtime (Handle PollResult fetchNext saturatingAdd u64Max)

/-- `std::time::Duration`. -/
structure Duration where
  secs : UInt64
  nanos : UInt32
  bounded : nanos.toNat < 10 ^ 9
deriving DecidableEq, Repr

def Duration.asNanos (duration : Duration) : ℕ := duration.secs.toNat * 10 ^ 9 + duration.nanos.toNat

def durationToNanosSaturating (duration : Duration) : UInt64 := UInt64.ofNat (min duration.asNanos u64Max)

/-- The hook that a timer keeps. -/
abbrev Hook := ℕ

inductive Effect (Output : Type) where
  /-- `async_timer_hook`. -/
  | timerHook
  /-- `next_async_lock_waiter_id`. -/
  | nextWaiter
  | nowNanos (hook : Hook)
  | register (hook : Hook) (timer deadlineNanos : UInt64)
  | timerDropped (hook : Hook) (timer : UInt64)
  /-- `tokio::time::sleep`. -/
  | tokioSleep (duration : Duration)
  | pollSleep (sleep : Handle)
  | dropSleep (sleep : Handle)
  /-- `tokio::time::interval`. -/
  | tokioInterval (period : Duration)
  | pollTick (interval : Handle)
  | dropInterval (interval : Handle)
  /-- Poll the future inside a `Timeout`. -/
  | pollFuture
  | dropFuture

abbrev Effect.Reply {Output : Type} : Effect Output → Type
  | .timerHook => Option Hook
  | .nextWaiter => Option UInt64
  | .nowNanos _ => UInt64
  | .tokioSleep _ | .tokioInterval _ => Handle
  | .pollSleep _ | .pollTick _ => PollResult Unit
  | .pollFuture => PollResult Output
  | .register .. | .timerDropped .. | .dropSleep _ | .dropInterval _ | .dropFuture => Unit

variable {Output : Type}

abbrev TimerM (Output : Type) := Program (Effect Output) Effect.Reply

abbrev perform (effect : Effect Output) : TimerM Output effect.Reply := Program.perform effect

inductive SleepState where
  | unstarted (duration : Duration)
  | hooked (timer deadlineNanos : UInt64) (hook : Hook)
  | unhooked (inner : Handle)
deriving DecidableEq, Repr

structure Sleep where
  state : SleepState
  resolved : Bool := false
deriving DecidableEq, Repr

def sleep (duration : Duration) : Sleep := { state := .unstarted duration }

namespace Sleep

/-- `start`: commits to a mode at the first poll. It panics where no id is left, and changes nothing then. -/
def start (self : Sleep) : TimerM Output (Option Sleep) :=
  match self.state with
  | .hooked .. | .unhooked _ => return some self
  | .unstarted duration => do
      match ← perform .timerHook with
      | some hook =>
        match ← perform .nextWaiter with
        | none => return none
        | some timer =>
          let now ← perform (.nowNanos hook)
          let deadlineNanos := saturatingAdd now (durationToNanosSaturating duration)
          return some { self with state := .hooked timer deadlineNanos hook }
      | none =>
        let inner ← perform (.tokioSleep duration)
        return some { self with state := .unhooked inner }

/-- The poll of a timer that has started. -/
def pollStarted (self : Sleep) : TimerM Output (PollResult Unit × Sleep) :=
  match self.state with
  | .unstarted _ => return (.panicked, self)
  | .hooked timer deadlineNanos hook => do
      let now ← perform (.nowNanos hook)
      if deadlineNanos ≤ now then
        return (.ready (), { self with resolved := true })
      perform (.register hook timer deadlineNanos)
      return (.pending, self)
  | .unhooked inner => do
      match ← perform (.pollSleep inner) with
      | .ready _ => return (.ready (), { self with resolved := true })
      | poll => return (poll, self)

def poll (self : Sleep) : TimerM Output (PollResult Unit × Sleep) := do
  match ← self.start with
  | none => return (.panicked, self)
  | some started => started.pollStarted

/-- The drop: a hooked timer that has not resolved reports. Then the fields are dropped. -/
def drop (self : Sleep) : TimerM Output Unit :=
  match self.state with
  | .unstarted _ => return ()
  | .hooked timer _ hook => if self.resolved then return () else perform (.timerDropped hook timer)
  | .unhooked inner => perform (.dropSleep inner)

end Sleep

/-- `Elapsed`. -/
inductive Elapsed where
  | mk
deriving DecidableEq, Repr

/-- A `Timeout` owns its future besides the delay. -/
structure Timeout where
  delay : Sleep
deriving DecidableEq, Repr

def timeout (duration : Duration) : Timeout := { delay := sleep duration }

namespace Timeout

/-- `poll`: the value first, then the timer. -/
def poll (self : Timeout) : TimerM Output (PollResult (Except Elapsed Output) × Timeout) := do
  match ← perform .pollFuture with
  | .ready value => return (.ready (.ok value), self)
  | .panicked => return (.panicked, self)
  | .pending =>
    let (polled, delay) ← self.delay.poll
    match polled with
    | .ready _ => return (.ready (.error .mk), { delay })
    | .pending => return (.pending, { delay })
    | .panicked => return (.panicked, { delay })

/-- The fields are dropped in order. -/
def drop (self : Timeout) : TimerM Output Unit := do
  perform .dropFuture
  self.delay.drop

end Timeout

inductive IntervalState where
  | unstarted (period : Duration)
  | hooked (timer periodNanos nextDeadlineNanos : UInt64) (hook : Hook)
  | unhooked (inner : Handle)
deriving DecidableEq, Repr

structure Interval where
  state : IntervalState
deriving DecidableEq, Repr

/-- `interval`, which panics where the period is zero. -/
def interval (period : Duration) : Option Interval :=
  if 0 < period.asNanos then some { state := .unstarted period } else none

namespace Interval

/-- The first part of `poll_tick`: the first tick is due at once. It panics where no id is left. -/
def start (self : Interval) : TimerM Output (Option Interval) :=
  match self.state with
  | .hooked .. | .unhooked _ => return some self
  | .unstarted period => do
      match ← perform .timerHook with
      | some hook =>
        match ← perform .nextWaiter with
        | none => return none
        | some timer =>
          let now ← perform (.nowNanos hook)
          return some { state := .hooked timer (durationToNanosSaturating period) now hook }
      | none =>
        let inner ← perform (.tokioInterval period)
        return some { state := .unhooked inner }

/-- The rest of `poll_tick`. -/
def pollStarted (self : Interval) : TimerM Output (PollResult Unit × Interval) :=
  match self.state with
  | .unstarted _ => return (.panicked, self)
  | .hooked timer periodNanos nextDeadlineNanos hook => do
      let now ← perform (.nowNanos hook)
      if nextDeadlineNanos ≤ now then
        return (.ready (), { state := .hooked timer periodNanos (saturatingAdd nextDeadlineNanos periodNanos) hook })
      perform (.register hook timer nextDeadlineNanos)
      return (.pending, self)
  | .unhooked inner => return (← perform (.pollTick inner), self)

def pollTick (self : Interval) : TimerM Output (PollResult Unit × Interval) := do
  match ← self.start with
  | none => return (.panicked, self)
  | some started => started.pollStarted

/-- An `Interval` has no drop of its own: only its fields are dropped. -/
def drop (self : Interval) : TimerM Output Unit :=
  match self.state with
  | .unstarted _ | .hooked .. => return ()
  | .unhooked inner => perform (.dropInterval inner)

end Interval

/-- What an owner has. -/
inductive Owner where
  | absent
  | sleep (sleep : Sleep)
  | timeout (timeout : Timeout)
  | interval (interval : Interval)
  | dropped
deriving DecidableEq, Repr

inductive Operation where
  | sleep (duration : Duration)
  | timeout (duration : Duration)
  | interval (period : Duration)
  | poll
  | drop
deriving DecidableEq, Repr

/-- The program of an operation. -/
def start : Owner → Operation → Option (TimerM Output Owner)
  | .absent, .sleep duration => some (pure (.sleep (sleep duration)))
  | .absent, .timeout duration => some (pure (.timeout (timeout duration)))
  | .absent, .interval period => some (pure (((interval period).map Owner.interval).getD .absent))
  | .sleep sleep, .poll => some do return .sleep (← sleep.poll).2
  | .timeout timeout, .poll => some do return .timeout (← timeout.poll).2
  | .interval interval, .poll => some do return .interval (← interval.pollTick).2
  | .sleep sleep, .drop => some do
      sleep.drop
      return .dropped
  | .timeout timeout, .drop => some do
      timeout.drop
      return .dropped
  | .interval interval, .drop => some do
      interval.drop
      return .dropped
  | _, _ => none

/-- What the hook sees. -/
inductive Call where
  | nowNanos (now : UInt64)
  | register (timer deadlineNanos : UInt64)
  | timerDropped (timer : UInt64)
deriving DecidableEq, Repr

/-- The virtual clock, the id supply, and the calls of the hook with their owners. -/
structure World (Process : Type) where
  now : UInt64 := 0
  nextWaiter : UInt64 := 1
  trace : List (Process × Call) := []

/-- What the schedule decides: the clock at the next reading, and what a future does. -/
structure Choice (Output : Type) where
  now : UInt64 := 0
  future : PollResult Output := .pending
  handle : Handle := 0
  tokio : PollResult Unit := .pending

/-- One effect, with one hook installed throughout. The clock never goes back. -/
def World.answer {Process : Type} (world : World Process) (process : Process) :
    (effect : Effect Output) → Choice Output → Option (effect.Reply × World Process)
  | .timerHook, _ => some (some 0, world)
  | .nextWaiter, _ =>
      some ((fetchNext world.nextWaiter).1, { world with nextWaiter := (fetchNext world.nextWaiter).2 })
  | .nowNanos _, choice =>
      if world.now ≤ choice.now then
        some (choice.now, { world with now := choice.now, trace := world.trace ++ [(process, .nowNanos choice.now)] })
      else none
  | .register _ timer deadlineNanos, _ =>
      some ((), { world with trace := world.trace ++ [(process, .register timer deadlineNanos)] })
  | .timerDropped _ timer, _ => some ((), { world with trace := world.trace ++ [(process, .timerDropped timer)] })
  | .tokioSleep _, choice | .tokioInterval _, choice => some (choice.handle, world)
  | .pollSleep _, choice | .pollTick _, choice => some (choice.tokio, world)
  | .pollFuture, choice => some (choice.future, world)
  | .dropSleep _, _ | .dropInterval _, _ | .dropFuture, _ => some ((), world)

/-- Any number of timers, each with its owner. -/
def timerSystem {Process : Type} :
    System (Effect Output) Effect.Reply Process Owner Operation (Choice Output) (World Process) where
  start _ := start
  answer world process := world.answer process

end Laplace.Model.Timers
