import Laplace.Model.ProbeEvent
import Mathlib.Logic.Function.Basic

/-! # The public reference verifier

`findLockOrderCycle` scans a captured trace once. It keeps the locks every thread holds and one
growing set of order edges, and it stops at the first acquisition that reverses a stored edge in
conflicting modes. Hash maps and hash sets are only read by key and by membership, so a total map
with default `[]` and a duplicate-free list stand for them.
-/

namespace Laplace.Model

/-- Mode in which a lock is held or acquired. -/
inductive HoldMode where
  | exclusive
  | shared
deriving DecidableEq, Repr

/-- Two shared operations on one resource never block each other. -/
def modesConflict (a b : HoldMode) : Bool := !(a == .shared && b == .shared)

/-- A lock event as the scan destructures it; a release carries the mode `exclusive`. -/
structure LockOp where
  threadId : UInt64
  resource : String
  mode : HoldMode
  isAcquire : Bool
deriving DecidableEq, Repr

/-- The event match at the top of the scan; every other event is skipped. -/
def lockOp? : ProbeEvent → Option LockOp
  | .lockAcquired threadId resource => some ⟨threadId, resource, .exclusive, true⟩
  | .rwLockWriteAcquired threadId resource => some ⟨threadId, resource, .exclusive, true⟩
  | .rwLockReadAcquired threadId resource => some ⟨threadId, resource, .shared, true⟩
  | .lockReleased threadId resource => some ⟨threadId, resource, .exclusive, false⟩
  | .rwLockWriteReleased threadId resource => some ⟨threadId, resource, .exclusive, false⟩
  | .rwLockReadReleased threadId resource => some ⟨threadId, resource, .exclusive, false⟩
  | _ => none

abbrev Hold := String × HoldMode

/-- Some thread acquired `acquired` while it held `held`. -/
structure OrderEdge where
  held : String
  heldMode : HoldMode
  acquired : String
  acquiredMode : HoldMode
deriving DecidableEq, Repr

structure ScanState where
  heldByThread : UInt64 → List Hold
  orderEdges : List OrderEdge

def ScanState.init : ScanState := ⟨fun _ => [], []⟩

/-- A stored edge that reverses the new one, with both waits blocking. -/
def OrderEdge.closes (theirs : OrderEdge) (resource : String) (mode : HoldMode) (prior : String)
    (priorMode : HoldMode) : Bool :=
  theirs.held == resource && theirs.acquired == prior &&
    modesConflict mode theirs.heldMode && modesConflict theirs.acquiredMode priorMode

/-- The inner loop over the thread's holds: report a cycle, or record one edge per hold. -/
def recordEdges (resource : String) (mode : HoldMode) :
    List Hold → List OrderEdge → Except String (List OrderEdge)
  | [], edges => .ok edges
  | (prior, priorMode) :: rest, edges =>
      if prior == resource then recordEdges resource mode rest edges
      else if edges.any (·.closes resource mode prior priorMode) then
        .error (prior ++ "->" ++ resource ++ "->" ++ prior)
      else recordEdges resource mode rest (edges.insert ⟨prior, priorMode, resource, mode⟩)

/-- The hold list of one thread after one of its lock events. A resource that is already held is
not pushed again and keeps its first mode; a release of any kind drops every entry of it. -/
def updateHolds (held : List Hold) (op : LockOp) : List Hold :=
  if op.isAcquire then
    if held.any (·.1 == op.resource) then held else held ++ [(op.resource, op.mode)]
  else held.filter (·.1 != op.resource)

/-- One iteration of the scan over a lock event. -/
def scanOp (state : ScanState) (op : LockOp) : Except String ScanState := do
  let held := state.heldByThread op.threadId
  let edges ← if op.isAcquire then recordEdges op.resource op.mode held state.orderEdges
    else .ok state.orderEdges
  return ⟨Function.update state.heldByThread op.threadId (updateHolds held op), edges⟩

def scanEvent (state : ScanState) (event : ProbeEvent) : Except String ScanState :=
  match lockOp? event with
  | some op => scanOp state op
  | none => .ok state

def findLockOrderCycle (events : List ProbeEvent) : Option String :=
  match events.foldlM scanEvent ScanState.init with
  | .ok _ => none
  | .error cycle => some cycle

/-- Probe collection configuration shared by generated harnesses. -/
structure ProbeSessionConfig where
  maxDepth : ℕ
  writeArd : Bool
  outputDir : String
deriving DecidableEq, Repr

inductive ReferenceVerdict where
  | clean
  | bugFound (description : String)
deriving DecidableEq, Repr

def ReferenceVerdict.isBug : ReferenceVerdict → Bool
  | .clean => false
  | .bugFound _ => true

structure VerifyResult where
  verdict : ReferenceVerdict
  eventsCollected : ℕ
deriving DecidableEq, Repr

/-- The verifier ignores its configuration, as the source's parameter `_config` says. -/
def runVerificationFrom (events : List ProbeEvent) (targetName : String)
    (_config : ProbeSessionConfig) : VerifyResult where
  verdict := (findLockOrderCycle events).elim .clean
    fun cycle => .bugFound (targetName ++ ": lock-order cycle " ++ cycle)
  eventsCollected := events.length

end Laplace.Model
