import Laplace.Model.FutureRuns

/-! # Hooks that are installed and cleared during a run

A future, a guard and a permit keep no hook: each report goes to the hook that its slot holds when it is made. Here
the hooks are told apart, any process may install or clear one between its operations, and what a hook was told
is recorded with the hook.
-/

namespace Laplace.Model.Runtime

open Laplace.Machine

variable {Value Hook Inner Choice Process : Type}

/-- `install_…_hook` and `clear_…_hook`. -/
structure HookChange (Hook : Type) where
  slot : HookSlot
  hook : Option Hook

abbrev HookedEffect (Value Hook : Type) := Effect Value ⊕ HookChange Hook

abbrev HookedEffect.Reply : HookedEffect Value Hook → Type := Sum.elim Effect.Reply fun _ => Unit

/-- A process with the hooks of its process-wide slots. -/
structure HookedWorld (Inner Process Hook : Type) where
  world : World Inner
  slots : HookSlot → Option Hook
  /-- The hook that a process found when it last looked at a slot. -/
  found : Process → Option Hook := fun _ => none
  /-- The hook that it had found before that. -/
  foundBefore : Process → Option Hook := fun _ => none
  heard : List (Hook × Event) := []

namespace HookedWorld

variable [DecidableEq Process]

/-- Perform one effect: a report goes to the hook that was found. -/
def answer (spec : Inner → (call : Tokio Value) → Choice → Option (call.Reply × Inner))
    (state : HookedWorld Inner Process Hook) (process : Process) :
    (effect : HookedEffect Value Hook) → Choice → Option (effect.Reply × HookedWorld Inner Process Hook)
  | .inl (.hook slot), _ => some ((state.slots slot).isSome,
      { state with
        found := Function.update state.found process (state.slots slot)
        foundBefore := Function.update state.foundBefore process (state.found process) })
  | .inl (.report event), _ =>
      (state.found process).map fun hook => ((), { state with heard := state.heard ++ [(hook, event)] })
  | .inl effect, choice =>
      (state.world.answer spec effect choice).map fun (reply, world) => (reply, { state with world })
  | .inr change, _ => some ((), { state with slots := Function.update state.slots change.slot change.hook })

end HookedWorld

/-- An event that begins what another one ends: an acquisition or the announcement of a wait. -/
def begins : Event → Bool
  | .requested .. | .acquired .. | .notifyWaitRequested .. | .channelOpRequested .. | .broadcastOpRequested .. => true
  | _ => false

/-- An event that ends what another one began: a release, or the drop of an announced wait. -/
def ends : Event → Bool
  | .released .. | .waiterDropped .. | .notifyWaiterDropped .. | .channelOpDropped .. | .broadcastOpDropped .. => true
  | _ => false

inductive HookedOperation (Value Hook : Type) where
  | future (operation : FutureOperation Value)
  | tryLock (self : ModelAsyncMutex)
  | tryRead (self : ModelAsyncRwLock)
  | tryWrite (self : ModelAsyncRwLock)
  | tryAcquire (self : ModelAsyncSemaphore)
  | tryAcquireMany (self : ModelAsyncSemaphore) (n : UInt32)
  | forget
  /-- Another call, which begins and ends nothing. -/
  | call (slot : HookSlot) (events : List Event)
  | change (change : HookChange Hook)

/-- A guard or a permit that a try-operation returned. -/
def FutureState.tried {ε : Type} (keep : α → Kept) (waiter : α → UInt64) : Except ε α → FutureState
  | .ok kept => .gone (waiter kept) { ready := true } (some (keep kept))
  | .error _ => .elsewhere

/-- The program of an operation of the runtime. -/
def hookedCall : FutureState → HookedOperation Value Hook → Option (RuntimeM Value FutureState)
  | .unborn, .future (.elsewhere ..) => none
  | state, .future operation => futureStart state operation
  | .unborn, .tryLock self => some do return .tried .mutexGuard Guard.waiter (← self.tryLock)
  | .unborn, .tryRead self => some do return .tried .readGuard Guard.waiter (← self.tryRead)
  | .unborn, .tryWrite self => some do return .tried .writeGuard Guard.waiter (← self.tryWrite)
  | .unborn, .tryAcquire self => some do return .tried .permit ModelSemaphorePermit.waiter (← self.tryAcquire)
  | .unborn, .tryAcquireMany self n => some do
      return .tried .permit ModelSemaphorePermit.waiter (← self.tryAcquireMany n)
  | .live future polls (some (.permit held)), .forget => some do
      held.forget
      return .live future polls none
  | .gone waiter polls (some (.permit held)), .forget => some do
      held.forget
      return .gone waiter polls none
  | .unborn, .call slot events => some do
      withHook slot (reportAll (events.filter fun event => !begins event && !ends event))
      return .elsewhere
  | _, _ => none

/-- The program of an operation, or of a change of hooks. -/
def hookedStart (state : FutureState) :
    HookedOperation Value Hook → Option (Program (HookedEffect Value Hook) HookedEffect.Reply FutureState)
  | .change change => some (.call (.inr change) fun _ => .done state)
  | operation => (hookedCall state operation).map Program.inject

/-- Any number of futures, guards and other calls, and of changes of hooks, over any tokio. -/
def hookSystem [DecidableEq Process] (spec : Process → Inner → (call : Tokio Value) → Choice →
    Option (call.Reply × Inner)) :
    System (HookedEffect Value Hook) HookedEffect.Reply Process FutureState (HookedOperation Value Hook) Choice
      (HookedWorld Inner Process Hook) where
  start _ := hookedStart
  answer state process := state.answer (spec process) process

end Laplace.Model.Runtime
