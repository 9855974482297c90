import Laplace.Model.Runtime
import Mathlib.Logic.Function.Basic

/-! # Traced events and their Lamport clocks

Each thread of a simulation keeps a `LamportTimestamp`, increments it before a local event and synchronizes it with
the stamp of the matching event before one that another event caused: a receive with its send, a join with an event of
the child. Events are logged in the order in which they happen; `usize` has 64 bits.
-/

namespace Laplace.Model.Tracing

open Laplace.Model.Runtime (saturatingAdd)

structure ThreadId where
  id : UInt32
deriving DecidableEq, Repr

structure LamportTimestamp where
  time : UInt64
deriving DecidableEq, Repr

namespace LamportTimestamp

def zero : LamportTimestamp := ⟨0⟩

/-- The addition wraps. -/
def increment (self : LamportTimestamp) : LamportTimestamp := ⟨self.time + 1⟩

def sync (self remote : LamportTimestamp) : LamportTimestamp := ⟨saturatingAdd (max self.time remote.time) 1⟩

end LamportTimestamp

structure EventMetadata where
  timestamp : LamportTimestamp
  threadId : ThreadId
  seqNum : UInt64
deriving DecidableEq, Repr

structure Address where
  address : UInt64
deriving DecidableEq, Repr

inductive FenceType where
  | acquire
  | release
  | seqCst
deriving DecidableEq, Repr

inductive MemoryOperation where
  | read (addr : Address) (value : UInt64) (cacheHit : Bool)
  | write (addr : Address) (value : UInt64) (buffered : Bool)
  | bufferFlush (addr : Address) (value : UInt64)
  | fence (fenceType : FenceType)
deriving DecidableEq, Repr

inductive SyncEvent where
  | mutexLock (lockId : UInt64)
  | mutexUnlock (lockId : UInt64)
  | condVarWait (cvId : UInt64)
  | condVarSignal (cvId : UInt64)
deriving DecidableEq, Repr

structure ClockEvent where
  prevTimestamp : LamportTimestamp
  newTimestamp : LamportTimestamp
deriving DecidableEq, Repr

inductive SimulationEvent where
  | clockTick (metadata : EventMetadata) (event : ClockEvent)
  | memory (metadata : EventMetadata) (operation : MemoryOperation)
  | synchronization (metadata : EventMetadata) (syncEvent : SyncEvent)
  | threadSpawn (metadata : EventMetadata) (childId : ThreadId)
  | threadJoin (metadata : EventMetadata) (childId : ThreadId)
deriving DecidableEq, Repr

namespace SimulationEvent

def metadata : SimulationEvent → EventMetadata
  | clockTick metadata _ | memory metadata _ | synchronization metadata _ | threadSpawn metadata _
  | threadJoin metadata _ => metadata

def timestamp (event : SimulationEvent) : LamportTimestamp := event.metadata.timestamp

def happensBefore (event other : SimulationEvent) : Bool := decide (event.timestamp.time < other.timestamp.time)

end SimulationEvent

/-! ## Runs -/

/-- What happens in an event, apart from its metadata. -/
inductive Happening where
  | clockTick (event : ClockEvent)
  | memory (operation : MemoryOperation)
  | synchronization (syncEvent : SyncEvent)
  | threadSpawn (childId : ThreadId)
  | threadJoin (childId : ThreadId)
deriving DecidableEq, Repr

def Happening.event (metadata : EventMetadata) : Happening → SimulationEvent
  | clockTick event => .clockTick metadata event
  | memory operation => .memory metadata operation
  | synchronization syncEvent => .synchronization metadata syncEvent
  | threadSpawn childId => .threadSpawn metadata childId
  | threadJoin childId => .threadJoin metadata childId

/-- An event of the log, with the place of the event that caused it. -/
structure Entry (Thread : Type) where
  thread : Thread
  source : Option ℕ
  event : SimulationEvent
deriving Repr

structure State (Thread : Type) where
  clock : Thread → LamportTimestamp := fun _ => .zero
  log : List (Entry Thread) := []

inductive Action (Thread : Type) where
  | localEvent (thread : Thread) (seqNum : UInt64) (happening : Happening)
  /-- A receive or a join; `source` is the place of the matching send, or of the child's event. -/
  | receive (thread : Thread) (source : ℕ) (seqNum : UInt64) (happening : Happening)

variable {Thread : Type} [DecidableEq Thread]

/-- The thread sets its clock and logs an event with that stamp. -/
def State.record (threadId : Thread → ThreadId) (state : State Thread) (thread : Thread) (source : Option ℕ)
    (seqNum : UInt64) (happening : Happening) (timestamp : LamportTimestamp) : State Thread where
  clock := Function.update state.clock thread timestamp
  log := state.log ++ [⟨thread, source, happening.event ⟨timestamp, threadId thread, seqNum⟩⟩]

def step (threadId : Thread → ThreadId) (state : State Thread) : Action Thread → Option (State Thread)
  | .localEvent thread seqNum happening =>
    some (state.record threadId thread none seqNum happening (state.clock thread).increment)
  | .receive thread source seqNum happening =>
    (state.log[source]?).map fun sent =>
      state.record threadId thread (some source) seqNum happening ((state.clock thread).sync sent.event.timestamp)

end Laplace.Model.Tracing
