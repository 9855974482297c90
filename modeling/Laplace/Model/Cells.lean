import Laplace.Machine.Program
import Laplace.Model.Probe

/-! # The versioned cells

`ModelArcSwap`, `ModelArcSwapOption` and the `Cache` over the former. Each cell pairs a value with its
version inside one snapshot of the real `ArcSwap`. A store draws the version and publishes the snapshot
under a mutex; a load takes no lock. The real `ArcSwap` is a register whose loads and stores are atomic, so
that it is given by everything it was ever given, in order.
-/

namespace Laplace.Model.Cells

open Laplace.Machine

abbrev Event := Probe.AsyncReport UInt64 UInt64

structure Versioned (T : Type) where
  version : UInt64
  value : T
deriving DecidableEq, Repr

inductive Effect (Snapshot : Type) where
  /-- `next_async_lock_resource_id`. -/
  | nextResource
  /-- `ArcSwap::new` and `Mutex::new(0)`. -/
  | construct (snapshot : Snapshot)
  /-- `ArcSwap::load` and `ArcSwap::load_full`. -/
  | load
  | store (snapshot : Snapshot)
  /-- `next_version.lock()`, which tells whether the mutex is poisoned. -/
  | lockVersion
  | readVersion
  | writeVersion (version : UInt64)
  /-- Drop the guard of `next_version`. -/
  | unlockVersion (panicking : Bool)
  /-- Whether a cell hook is installed. -/
  | cellHook
  | report (event : Event)
  | panic (message : String)

abbrev Effect.Reply {Snapshot : Type} : Effect Snapshot → Type
  | .nextResource => Option UInt64
  | .load => Snapshot
  | .lockVersion | .cellHook => Bool
  | .readVersion => UInt64
  | .construct _ | .store _ | .writeVersion _ | .unlockVersion _ | .report _ => Unit
  | .panic _ => Empty

abbrev CellM (Snapshot : Type) := Program (Effect Snapshot) Effect.Reply

variable {Snapshot T : Type}

abbrev perform (effect : Effect Snapshot) : CellM Snapshot effect.Reply := Program.perform effect

/-- A panic never returns. -/
def panic {α : Type} (message : String) : CellM Snapshot α := .call (.panic message) Empty.elim

/-- `if let Some(hook) = async_cell_hook() { … }`. -/
def withHook (event : Event) : CellM Snapshot Unit := do
  if ← perform .cellHook then perform (.report event)

/-- The constructors: the id, the cell at version zero, then the report. -/
def create (snapshot : Snapshot) : CellM Snapshot UInt64 := do
  match ← perform .nextResource with
  | none => panic "laplace: model async resource id namespace exhausted"
  | some resource =>
    perform (.construct snapshot)
    withHook (.cellCreated resource)
    return resource

/-- `u64::checked_add(1)`. -/
def checkedSucc (version : UInt64) : Option UInt64 :=
  if version.toNat + 1 < 2 ^ 64 then some (version + 1) else none

/-- The rest of a store, once the next version was computed. Unwinding drops the guard of the mutex. -/
def publishNext (resource : UInt64) (snapshot : UInt64 → Snapshot) : Option UInt64 → CellM Snapshot Unit
  | none => do
      perform (.unlockVersion true)
      panic "cell version counter exhausted"
  | some version => do
      perform (.writeVersion version)
      perform (.store (snapshot version))
      withHook (.cellStore resource version)
      perform (.unlockVersion false)

/-- The stores: version allocation and publication under the mutex. -/
def publish (resource : UInt64) (snapshot : UInt64 → Snapshot) : CellM Snapshot Unit := do
  if ← perform .lockVersion then
    perform (.unlockVersion true)
    panic "cell version lock poisoned"
  let nextVersion ← perform .readVersion
  publishNext resource snapshot (checkedSucc nextVersion)

namespace ModelArcSwap

def new (value : T) : CellM (Versioned T) UInt64 := create { version := 0, value }

/-- `load`; the guard derefs to the value. -/
def load (resource : UInt64) : CellM (Versioned T) T := do
  let inner ← perform .load
  withHook (.cellLoad resource inner.version)
  return inner.value

def loadFull (resource : UInt64) : CellM (Versioned T) T := do
  let snapshot ← perform .load
  withHook (.cellLoad resource snapshot.version)
  return snapshot.value

def store (resource : UInt64) (value : T) : CellM (Versioned T) Unit :=
  publish resource fun version => { version, value }

def loadSnapshot (resource : UInt64) : CellM (Versioned T) (T × UInt64) := do
  let snapshot ← perform .load
  withHook (.cellLoad resource snapshot.version)
  return (snapshot.value, snapshot.version)

def initialSnapshot : CellM (Versioned T) (T × UInt64) := do
  let snapshot ← perform .load
  return (snapshot.value, snapshot.version)

end ModelArcSwap

namespace ModelArcSwapOption

def new (value : Option T) : CellM (Option (Versioned T)) UInt64 :=
  create (value.map fun value => { version := 0, value })

def empty : CellM (Option (Versioned T)) UInt64 := new none

/-- `load`: the version stands in the payload, so that an empty cell has none to report. -/
def load (resource : UInt64) : CellM (Option (Versioned T)) (Option T) := do
  let inner ← perform .load
  match inner with
  | some snapshot => withHook (.cellLoad resource snapshot.version)
  | none => pure ()
  return inner.map (·.value)

def loadFull (resource : UInt64) : CellM (Option (Versioned T)) (Option T) := do
  match ← perform .load with
  | some snapshot =>
    withHook (.cellLoad resource snapshot.version)
    return some snapshot.value
  | none => return none

def store (resource : UInt64) (value : Option T) : CellM (Option (Versioned T)) Unit :=
  publish resource fun version => value.map fun value => { version, value }

end ModelArcSwapOption

/-- `Cache` over one cell. -/
structure Cache (T : Type) where
  cached : T
  cachedVersion : UInt64
deriving DecidableEq, Repr

namespace Cache

def new : CellM (Versioned T) (Cache T) := do
  let (cached, cachedVersion) ← ModelArcSwap.initialSnapshot
  return { cached, cachedVersion }

/-- `load`: the cached value is replaced only when the version differs. -/
def load (resource : UInt64) (cache : Cache T) : CellM (Versioned T) (T × Cache T) := do
  let (value, version) ← ModelArcSwap.loadSnapshot resource
  let cache := if version ≠ cache.cachedVersion then { cached := value, cachedVersion := version } else cache
  return (cache.cached, cache)

end Cache

/-- One cell: everything its `ArcSwap` was given, the version mutex, and what each thread reported. -/
structure World (Snapshot Process : Type) where
  published : List Snapshot := []
  nextVersion : UInt64 := 0
  versionHolder : Option Process := none
  poisoned : Bool := false
  nextResource : UInt64 := 1
  trace : List (Process × Event) := []

namespace World

variable {Process : Type}

/-- One effect, with a cell hook installed. -/
def answer (world : World Snapshot Process) (process : Process) :
    (effect : Effect Snapshot) → Option (effect.Reply × World Snapshot Process)
  | .nextResource =>
      match checkedSucc world.nextResource with
      | some next => some (some world.nextResource, { world with nextResource := next })
      | none => some (none, world)
  | .construct snapshot => some ((), { world with published := [snapshot], nextVersion := 0 })
  | .load => world.published.getLast?.map fun snapshot => (snapshot, world)
  | .store snapshot => some ((), { world with published := world.published ++ [snapshot] })
  | .lockVersion =>
      if world.versionHolder.isNone then some (world.poisoned, { world with versionHolder := some process })
      else none
  | .readVersion => some (world.nextVersion, world)
  | .writeVersion version => some ((), { world with nextVersion := version })
  | .unlockVersion panicking =>
      some ((), { world with versionHolder := none, poisoned := world.poisoned || panicking })
  | .cellHook => some (true, world)
  | .report event => some ((), { world with trace := world.trace ++ [(process, event)] })
  | .panic _ => none

/-- Perform the effects of one thread that runs alone. -/
def handle (effect : Effect Snapshot) (world : World Snapshot Unit) : Option (effect.Reply × World Snapshot Unit) :=
  world.answer () effect

end World

/-- What a thread has of the cell: its caches, and what its loads returned. -/
structure Client (T : Type) where
  caches : List (Cache T) := []
  loaded : List T := []

namespace Client

inductive Operation (T : Type) where
  | load
  | loadFull
  | store (value : T)
  | cacheNew
  | cacheLoad (index : ℕ)

/-- The program of an operation. -/
def start (resource : UInt64) (client : Client T) : Operation T → Option (CellM (Versioned T) (Client T))
  | .load => some do
      let value ← ModelArcSwap.load resource
      return { client with loaded := client.loaded ++ [value] }
  | .loadFull => some do
      let value ← ModelArcSwap.loadFull resource
      return { client with loaded := client.loaded ++ [value] }
  | .store value => some do
      ModelArcSwap.store resource value
      return client
  | .cacheNew => some do
      let cache ← Cache.new
      return { client with caches := client.caches ++ [cache] }
  | .cacheLoad index => client.caches[index]?.map fun cache => do
      let (value, cache) ← cache.load resource
      return { caches := client.caches.set index cache, loaded := client.loaded ++ [value] }

end Client

/-- The runs of any number of threads on one `ModelArcSwap`. -/
def cellSystem {Process : Type} (resource : UInt64) :
    System (Effect (Versioned T)) Effect.Reply Process (Client T) (Client.Operation T) Unit
      (World (Versioned T) Process) where
  start _ := Client.start resource
  answer world process effect _ := world.answer process effect

namespace OptionCell

inductive Operation (T : Type) where
  | store (value : Option T)
  | load
  | loadFull

def Operation.isLoad : Operation T → Bool
  | .store _ => false
  | .load | .loadFull => true

def Operation.program (resource : UInt64) : Operation T → CellM (Option (Versioned T)) (Option (Option T))
  | .store value => do
      ModelArcSwapOption.store resource value
      return none
  | .load => do return some (← ModelArcSwapOption.load resource)
  | .loadFull => do return some (← ModelArcSwapOption.loadFull resource)

/-- One operation by the only thread. A store that panics leaves the cell to the operations after it. -/
def step (resource : UInt64) (world : World (Option (Versioned T)) Unit) (operation : Operation T) :
    Option (World (Option (Versioned T)) Unit) :=
  some ((operation.program resource).run World.handle world).2

end OptionCell

end Laplace.Model.Cells
