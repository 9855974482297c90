import Laplace.Model.Tenant

/-! # Request contexts

A context carries the tier of its tenant, a turbo flag and the slot it holds in the shared memory pool. The builder
calls update the three separately; a chain of them, in which a slot is allocated in turbo mode only and a child gets
an id of its own, goes on with the context that the last call returned.
-/

namespace Laplace.Model.Context

open Tenant

inductive PriorityLevel where
  | lowest
  | low
  | normal
  | high
  | critical
  | systemCritical
deriving DecidableEq, Repr

def PriorityLevel.asU8 : PriorityLevel → UInt8
  | lowest => 0
  | low => 1
  | normal => 2
  | high => 3
  | critical => 4
  | systemCritical => 5

/-- `u32::MAX` -/
def noTurboSlot : UInt32 := 0xffffffff

structure SovereignContext where
  requestId : String
  tenantId : String
  traceId : String
  priority : UInt8
  tier : UInt8
  isTurboMode : Bool
  timestamp : UInt64
  turboSlot : UInt32
deriving DecidableEq, Repr

namespace SovereignContext

/-- `now` is what `current_timestamp` returns. -/
def new (now : UInt64) (requestId tenantId traceId : String) : SovereignContext where
  requestId := requestId
  tenantId := tenantId
  traceId := traceId
  priority := PriorityLevel.high.asU8
  tier := TenantTier.standard.asU8
  isTurboMode := false
  timestamp := now
  turboSlot := noTurboSlot

def newTurbo (now : UInt64) (requestId tenantId traceId : String) : SovereignContext where
  requestId := requestId
  tenantId := tenantId
  traceId := traceId
  priority := PriorityLevel.high.asU8
  tier := TenantTier.turbo.asU8
  isTurboMode := true
  timestamp := now
  turboSlot := noTurboSlot

def withPriority (context : SovereignContext) (priority : UInt8) : SovereignContext :=
  { context with priority := min priority 5 }

/-- A tier without acceleration ends turbo mode; the slot stays as it is. -/
def withTier (context : SovereignContext) (tier : TenantTier) : SovereignContext :=
  { context with
    tier := tier.asU8
    isTurboMode := if tier.usesTurboAcceleration then context.isTurboMode else false }

def allocateTurboSlot (context : SovereignContext) (slot : UInt32) : SovereignContext :=
  { context with turboSlot := slot }

def spawnChild (context : SovereignContext) (now : UInt64) (newRequestId : String) : SovereignContext :=
  { context with requestId := newRequestId, timestamp := now, turboSlot := noTurboSlot }

def isValid (context : SovereignContext) : Bool :=
  let hasIds := !context.requestId.isEmpty && !context.tenantId.isEmpty && !context.traceId.isEmpty
  let priorityValid := decide (context.priority ≤ 5)
  let tierValid := decide (context.tier ≤ 4)
  let turboConsistent :=
    if context.isTurboMode then ((TenantTier.fromU8 context.tier).map (·.usesTurboAcceleration)).getD false else true
  hasIds && priorityValid && tierValid && turboConsistent

def hasTurboSlot (context : SovereignContext) : Bool := context.turboSlot != noTurboSlot

def getTurboSlot (context : SovereignContext) : Option UInt32 :=
  if context.turboSlot != noTurboSlot then some context.turboSlot else none

end SovereignContext

/-! ## Builder chains -/

inductive Call where
  | withPriority (priority : UInt8)
  | withTier (tier : TenantTier)
  | allocateTurboSlot (slot : UInt32)
  | spawnChild (now : UInt64) (newRequestId : String)
deriving DecidableEq, Repr

/-- The chain allocates a slot in turbo mode only, and gives every child an id. -/
def step (context : SovereignContext) : Call → Option SovereignContext
  | .withPriority priority => some (context.withPriority priority)
  | .withTier tier => some (context.withTier tier)
  | .allocateTurboSlot slot => if context.isTurboMode then some (context.allocateTurboSlot slot) else none
  | .spawnChild now newRequestId => if newRequestId ≠ "" then some (context.spawnChild now newRequestId) else none

/-- The contexts that a chain starts from. -/
inductive Fresh : SovereignContext → Prop
  | new (now : UInt64) {requestId tenantId traceId : String} (request : requestId ≠ "") (tenant : tenantId ≠ "")
      (trace : traceId ≠ "") : Fresh (.new now requestId tenantId traceId)
  | newTurbo (now : UInt64) {requestId tenantId traceId : String} (request : requestId ≠ "") (tenant : tenantId ≠ "")
      (trace : traceId ≠ "") : Fresh (.newTurbo now requestId tenantId traceId)

end Laplace.Model.Context
