import Laplace.Model.Runtime

/-! # Threads that draw ids

The runtime has four id counters: for the resources and waiters of its async family, for its std locks and for the
tasks it spawns natively. Threads call the allocators and the shared `AsyncResourceId`s in any order, one atomic
step at a time; nothing resets a counter. What each counter handed out, and what each finished call returned to its
caller, is noted on the side.
-/

namespace Laplace.Model.IdAllocation

open Laplace.Machine Laplace.Model.Runtime

inductive Counter where
  /-- `NEXT_ASYNC_LOCK_RESOURCE_ID` -/
  | asyncResource
  /-- `NEXT_ASYNC_LOCK_WAITER_ID` -/
  | asyncWaiter
  /-- `NEXT_LOCK_RESOURCE_ID` -/
  | lockResource
  /-- `NEXT_NATIVE_DYNAMIC_TASK_ID` -/
  | nativeTask
deriving DecidableEq, Repr

/-- What a call returns to its caller. -/
inductive Returned where
  /-- An allocator returns an id of its counter. -/
  | allocated (counter : Counter) (id : UInt64)
  /-- A constructor returns an object. -/
  | made (object : AsyncResourceId)
  /-- `get` returns the id of its object. -/
  | obtained (object : AsyncResourceId) (id : UInt64)
deriving DecidableEq, Repr

/-- The effects that are not among the runtime's. -/
inductive Further where
  /-- `fetch_update(checked_add(1))` on `NEXT_LOCK_RESOURCE_ID`. -/
  | nextLockResource
  /-- `fetch_update(checked_add(1))` on `NEXT_NATIVE_DYNAMIC_TASK_ID`. -/
  | nextNativeTask
  /-- A call returns. -/
  | returned (value : Returned)
deriving DecidableEq, Repr

abbrev Further.Reply : Further → Type
  | .nextLockResource | .nextNativeTask => Option UInt64
  | .returned .. => Unit

abbrev Effects := Effect Unit ⊕ Further

abbrev Replies : Effects → Type := Sum.elim Effect.Reply Further.Reply

abbrev Drawing := Program Effects Replies

/-- The two other allocators have one body. -/
def nextId (fetch : Drawing (Option UInt64)) (message : String) : Drawing UInt64 := do
  match ← fetch with
  | some id => pure id
  | none => (Runtime.panic message : RuntimeM Unit UInt64).inject

def nextLockResourceId : Drawing UInt64 :=
  nextId (Program.perform (Sum.inr Further.nextLockResource : Effects))
    "laplace: model lock resource id namespace exhausted"

def nextNativeDynamicTaskId : Drawing UInt64 :=
  nextId (Program.perform (Sum.inr Further.nextNativeTask : Effects))
    "laplace: native dynamic task id namespace exhausted"

inductive Operation where
  | nextAsyncLockResourceId
  | nextAsyncLockWaiterId
  | nextLockResourceId
  | nextNativeDynamicTaskId
  | newEager
  | newLazy
  | get (object : AsyncResourceId)
deriving DecidableEq, Repr

def returning (value : Returned) : Drawing Unit := Program.perform (Sum.inr (Further.returned value) : Effects)

/-- The program of an operation. -/
def Operation.program : Operation → Drawing Unit
  | .nextAsyncLockResourceId => do
    let id ← (Runtime.nextAsyncLockResourceId (pure ())).inject
    returning (.allocated .asyncResource id)
  | .nextAsyncLockWaiterId => do
    let id ← (Runtime.nextAsyncLockWaiterId (pure ())).inject
    returning (.allocated .asyncWaiter id)
  | .nextLockResourceId => do
    let id ← IdAllocation.nextLockResourceId
    returning (.allocated .lockResource id)
  | .nextNativeDynamicTaskId => do
    let id ← IdAllocation.nextNativeDynamicTaskId
    returning (.allocated .nativeTask id)
  | .newEager => do
    let object ← (AsyncResourceId.newEager).inject
    returning (.made object)
  | .newLazy => do
    let object ← (AsyncResourceId.newLazy).inject
    returning (.made object)
  | .get object => do
    let id ← (object.get (pure ())).inject
    returning (.obtained object id)

/-- The runtime's world, the counters beside it, and the notes. -/
structure Shared where
  world : World Unit
  nextLockResource : UInt64
  nextNativeTask : UInt64
  handedOut : Counter → List UInt64 := fun _ => []
  /-- What the allocators of the counter returned. -/
  allocated : Counter → List UInt64 := fun _ => []
  /-- What the constructors returned. -/
  made : List AsyncResourceId := []
  /-- What `get` returned. -/
  obtained : List (AsyncResourceId × UInt64) := []

def Shared.counter (shared : Shared) : Counter → UInt64
  | .asyncResource => shared.world.nextResource
  | .asyncWaiter => shared.world.nextWaiter
  | .lockResource => shared.nextLockResource
  | .nativeTask => shared.nextNativeTask

/-- Note an id that was handed out; a failure hands out none. -/
def Shared.note (shared : Shared) (counter : Counter) (drawn : Option UInt64) : Shared :=
  { shared with
    handedOut := Function.update shared.handedOut counter (shared.handedOut counter ++ drawn.toList) }

/-- Note what a call returned. -/
def Shared.record (shared : Shared) : Returned → Shared
  | .allocated counter id =>
    { shared with
      allocated := Function.update shared.allocated counter (shared.allocated counter ++ [id]) }
  | .made object => { shared with made := shared.made ++ [object] }
  | .obtained object id => { shared with obtained := shared.obtained ++ [(object, id)] }

/-- The runtime's own effects; tokio is not called. -/
def Shared.perform (shared : Shared) (effect : Effect Unit) : Option (effect.Reply × Shared) :=
  (shared.world.answer (fun _ _ _ => none) effect ()).map fun (reply, world) => (reply, { shared with world })

def Shared.answer (shared : Shared) : (effect : Effects) → Option (Replies effect × Shared)
  | .inl .nextResource =>
    (shared.perform .nextResource).map fun (drawn, later) => (drawn, later.note .asyncResource drawn)
  | .inl .nextWaiter =>
    (shared.perform .nextWaiter).map fun (drawn, later) => (drawn, later.note .asyncWaiter drawn)
  | .inl effect => shared.perform effect
  | .inr .nextLockResource =>
    let (drawn, nextLockResource) := fetchNext shared.nextLockResource
    some (drawn, { shared with nextLockResource }.note .lockResource drawn)
  | .inr .nextNativeTask =>
    let (drawn, nextNativeTask) := fetchNext shared.nextNativeTask
    some (drawn, { shared with nextNativeTask }.note .nativeTask drawn)
  | .inr (.returned value) => some ((), shared.record value)

/-- Any threads, each of which calls one operation after another. -/
def allocation (Thread : Type) : System Effects Replies Thread Unit Operation Unit Shared where
  start _ _ operation := some operation.program
  answer shared _ effect _ := shared.answer effect

/-- The counters at these values, so many ids made with `new_lazy` as statics, and every thread idle. -/
def initial {Thread : Type} (counters : Counter → UInt64) (statics : ℕ) :
    System.Config Effects Replies Thread Unit Shared where
  shared :=
    { world :=
        { inner := ()
          nextResource := counters .asyncResource
          nextWaiter := counters .asyncWaiter
          nextHandle := statics }
      nextLockResource := counters .lockResource
      nextNativeTask := counters .nativeTask }
  program _ := .done ()

/-- `get` is called on ids that have been made. -/
def OnMade {Thread : Type} (config : System.Config Effects Replies Thread Unit Shared) :
    System.Action Thread Operation Unit → Prop
  | .start _ (.get object) => object < config.shared.world.nextHandle
  | _ => True

end Laplace.Model.IdAllocation
