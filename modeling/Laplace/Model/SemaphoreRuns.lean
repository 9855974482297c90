import Laplace.Model.AsyncLocks

/-! # Runs of one async semaphore

A process is one use of the semaphore: an acquisition with its future and its permit, or one call of
`add_permits`. Operations of different processes interleave after every effect. Tokio's semaphore is any
that never has more permits out than it was given; permits that are forgotten stay out.
-/

namespace Laplace.Model.Runtime

open Laplace.Machine

variable {Value Process : Type}

/-- One use of the semaphore. -/
structure PermitUse where
  future : Option ModelSemaphoreAcquire
  permit : Option ModelSemaphorePermit
deriving DecidableEq, Repr

inductive SemaphoreOperation where
  | acquire
  | acquireMany (n : UInt32)
  | tryAcquire
  | tryAcquireMany (n : UInt32)
  | poll
  | dropFuture
  | dropPermit
  | forget
  | addPermits (n : ℕ)
deriving DecidableEq, Repr

def PermitUse.polled : Poll (Except Unit ModelSemaphorePermit) × ModelSemaphoreAcquire → PermitUse
  | (.ready (.ok permit), future) => { future := some future, permit := some permit }
  | (.ready (.error _), future) | (.pending, future) => { future := some future, permit := none }

def PermitUse.attempted : Except TryAcquireError ModelSemaphorePermit → PermitUse
  | .ok permit => { future := none, permit := some permit }
  | .error _ => { future := none, permit := none }

/-- The program of an operation. A future is not polled again after it was ready. -/
def semaphoreStart (self : ModelAsyncSemaphore) :
    Option PermitUse → SemaphoreOperation → Option (RuntimeM Value (Option PermitUse))
  | none, .acquire => some do
      let future ← self.acquire
      return some { future := some future, permit := none }
  | none, .acquireMany n => some do
      let future ← self.acquireMany n
      return some { future := some future, permit := none }
  | none, .tryAcquire => some do
      let result ← self.tryAcquire
      return some (PermitUse.attempted result)
  | none, .tryAcquireMany n => some do
      let result ← self.tryAcquireMany n
      return some (PermitUse.attempted result)
  | none, .addPermits n => some do
      self.addPermits n
      return some { future := none, permit := none }
  | some { future := some future, permit := _ }, .poll =>
      if future.resolved then none
      else some do
        let result ← future.poll
        return some (PermitUse.polled result)
  | some { future := some future, permit }, .dropFuture => some do
      future.drop
      return some { future := none, permit }
  | some { future, permit := some permit }, .dropPermit => some do
      permit.drop
      return some { future, permit := none }
  | some { future, permit := some permit }, .forget => some do
      permit.forget
      return some { future, permit := none }
  | _, _ => none

/-- What tokio's semaphore was given and has given out. -/
structure Permits (Process : Type) where
  given : ℕ
  out : ℕ := 0
  /-- What the future of a process asks for. -/
  wanted : Process → ℕ := fun _ => 0
  /-- The permits that a process has added. -/
  forwarded : Process → ℕ := fun _ => 0

/-- Give out permits, if there are that many. -/
def Permits.grant (permits : Permits Process) (n : ℕ) : Option (Permits Process) :=
  if permits.out + n ≤ permits.given then some { permits with out := permits.out + n } else none

variable [DecidableEq Process]

/-- Tokio's semaphore, as far as it counts: the schedule decides whether it grants. -/
def countingSemaphore (process : Process) (permits : Permits Process) :
    (call : Tokio Value) → Bool → Option (call.Reply × Permits Process)
  | .acquire _, _ =>
      some ((0 : Handle), { permits with wanted := Function.update permits.wanted process 1 })
  | .acquireMany _ n, _ =>
      some ((0 : Handle), { permits with wanted := Function.update permits.wanted process n.toNat })
  | .poll .acquire _, grants =>
      if grants then (permits.grant (permits.wanted process)).map fun permits => (.ready (.ok (0 : Handle)), permits)
      else some (.pending, permits)
  | .tryAcquire _, grants =>
      if grants then (permits.grant 1).map fun permits => (.ok (0 : Handle), permits)
      else some (.error .noPermits, permits)
  | .tryAcquireMany _ n, grants =>
      if grants then (permits.grant n.toNat).map fun permits => (.ok (0 : Handle), permits)
      else some (.error .noPermits, permits)
  | .dropGuard (.semaphorePermits n) _, _ => some ((), { permits with out := permits.out - n.toNat })
  | .forgetPermit _, _ => some ((), permits)
  | .dropFuture _ _, _ => some ((), permits)
  | .addPermits _ n, _ =>
      some ((), { permits with
        given := permits.given + n
        forwarded := Function.update permits.forwarded process (permits.forwarded process + n) })
  | _, _ => none

/-- The runs of one semaphore. -/
def semaphoreSystem (Value : Type) (self : ModelAsyncSemaphore) :
    System (Effect Value) Effect.Reply Process (Option PermitUse) SemaphoreOperation Bool
      (World (Permits Process)) :=
  runtimeSystem (fun _ => semaphoreStart self) countingSemaphore

end Laplace.Model.Runtime
