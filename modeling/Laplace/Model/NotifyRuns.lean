import Laplace.Model.AsyncLocks

/-! # Runs of one async notify

A process is one use of the notify: a wait with its future, or one call that notifies. Operations of
different processes interleave after every effect. Tokio's notify is any that ends a wait only for a
`notify_one` that ended no other wait, or for a `notify_waiters` since the wait was made; which waits it
ends, and whether it stores a permit, is left to the schedule.
-/

namespace Laplace.Model.Runtime

open Laplace.Machine

variable {Value Process : Type}

/-- One use of the notify. -/
inductive NotifyUse where
  | unused
  | waiting (future : Awaiting)
  | spent
deriving DecidableEq, Repr

inductive NotifyOperation where
  | notified
  | poll
  | dropFuture
  | notifyOne
  | notifyWaiters
deriving DecidableEq, Repr

/-- The program of an operation. A future is not polled again after it was ready. -/
def notifyStart (self : ModelAsyncNotify) : NotifyUse → NotifyOperation → Option (RuntimeM Value NotifyUse)
  | .unused, .notified => some do
      let future ← ModelAsyncNotify.notified self
      return .waiting future
  | .unused, .notifyOne => some do
      ModelAsyncNotify.notifyOne self
      return .spent
  | .unused, .notifyWaiters => some do
      ModelAsyncNotify.notifyWaiters self
      return .spent
  | .waiting future, .poll =>
      if future.resolved then none
      else some do
        let result ← ModelNotified.poll future
        return .waiting result.2
  | .waiting future, .dropFuture => some do
      ModelNotified.drop future
      return .spent
  | _, _ => none

/-- What tokio's notify was told and what it has ended. -/
structure Notifications (Process : Type) where
  /-- The calls of `notify_one`. -/
  given : ℕ := 0
  /-- The waits that ended for one of them. -/
  taken : ℕ := 0
  /-- The calls of `notify_waiters`. -/
  broadcasts : ℕ := 0
  /-- The waits that ended for one of these. -/
  woken : ℕ := 0
  /-- The broadcasts there were when the future of a process was made. -/
  began : Process → ℕ := fun _ => 0

/-- What the schedule lets a wait find. -/
inductive Wakeup where
  | none
  | one
  | waiters
deriving DecidableEq, Repr

/-- A wait ends for a `notify_one` that no other wait ended for, or for a `notify_waiters` that it has lived to see. -/
def Notifications.wake (notifications : Notifications Process) (process : Process) :
    Wakeup → Option (Poll Unit × Notifications Process)
  | .none => some (.pending, notifications)
  | .one =>
      if notifications.taken < notifications.given then
        some (.ready (), { notifications with taken := notifications.taken + 1 })
      else none
  | .waiters =>
      if notifications.began process < notifications.broadcasts then
        some (.ready (), { notifications with woken := notifications.woken + 1 })
      else none

variable [DecidableEq Process]

/-- Tokio's notify, as far as it counts. -/
def countingNotify (process : Process) (notifications : Notifications Process) :
    (call : Tokio Value) → Wakeup → Option (call.Reply × Notifications Process)
  | .notified _, _ => some ((0 : Handle), { notifications with
      began := Function.update notifications.began process notifications.broadcasts })
  | .poll .notified _, wakeup => notifications.wake process wakeup
  | .dropFuture _ _, _ => some ((), notifications)
  | .notifyOne _, _ => some ((), { notifications with given := notifications.given + 1 })
  | .notifyWaiters _, _ => some ((), { notifications with broadcasts := notifications.broadcasts + 1 })
  | _, _ => none

/-- The runs of one notify. -/
def notifySystem (Value : Type) (self : ModelAsyncNotify) :
    System (Effect Value) Effect.Reply Process NotifyUse NotifyOperation Wakeup (World (Notifications Process)) :=
  runtimeSystem (fun _ => notifyStart self) countingNotify

end Laplace.Model.Runtime
