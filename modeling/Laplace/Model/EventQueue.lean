import Laplace.Model.Tracing

/-! # Scheduled events

A scheduled event is the one of its id. Events are compared for a queue that removes a maximum, so the comparison is
turned around: the earliest time is the greatest, then the lowest Lamport clock, then the lowest id.
-/

namespace Laplace.Model.EventQueue

open Tracing (Address)

structure CoreId where
  core : UInt64
deriving DecidableEq, Repr

inductive EventPayload where
  | test (tag : UInt64)
  | memoryWriteSync (core : CoreId) (addr : Address) (value : UInt64)
  | memoryFence (core : CoreId)
  | taskReady (taskId : String)
  | watchdogTimeout (tenantId : String)
  | custom (payload : String)
deriving DecidableEq, Repr

structure ScheduledEvent where
  scheduledAtNs : UInt64
  lamport : UInt64
  eventId : UInt64
  payload : EventPayload
deriving DecidableEq, Repr

namespace ScheduledEvent

/-- `PartialEq::eq` -/
def eq (self other : ScheduledEvent) : Bool := self.eventId == other.eventId

/-- `Ord::cmp` -/
def cmp (self other : ScheduledEvent) : Ordering :=
  match compare other.scheduledAtNs self.scheduledAtNs with
  | .eq =>
    match compare other.lamport self.lamport with
    | .eq => compare other.eventId self.eventId
    | ord => ord
  | ord => ord

def partialCmp (self other : ScheduledEvent) : Option Ordering := some (self.cmp other)

end ScheduledEvent

end Laplace.Model.EventQueue
