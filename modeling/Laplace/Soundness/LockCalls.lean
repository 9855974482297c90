import Laplace.Machine.Translation
import Laplace.Model.ExclusiveLocks
import Laplace.Model.LockPrograms
import Laplace.Model.StdLocks

/-! # The calls of the locks, at three levels

`StdLocks` has the model locks under any hook, `Locking` the mutexes under observation with the thread ids that their
hook reads, and `LockPrograms` whole threads, in which nobody panics and no engine is installed. The calls are the same
programs, up to how their effects are carried out.
-/

namespace Laplace.Soundness

open Laplace.Machine Laplace.Model

/-! ## The one mutex under observation -/

/-- The probe's hook in place of any hook. -/
def mutexEffect : (effect : StdLocks.Effect) → Locking.MutexM effect.Reply
  | .lockHook => Locking.perform .lockHook
  | .spawnHook => Locking.perform .spawnHook
  | .report (.acquire resource) => Locking.ProbeLockHook.acquire resource
  | .report (.release resource) => Locking.ProbeLockHook.release resource
  | .take _ _ => Locking.perform .lock
  | .tryTake _ _ => do
      match ← Locking.perform .tryLock with
      | .acquired poisoned => return .acquired poisoned
      | .wouldBlock => return .wouldBlock
  | .give _ _ panicking => Locking.perform (.unlock panicking)

/-- The guard of a call, or its panic. -/
def mutexGuard : Except String StdLocks.Guard → Locking.MutexM Locking.Guard
  | .ok guard => return .model guard.poisoned
  | .error message => Locking.panic message

theorem modelMutex_lock_agrees (resource : UInt64) :
    Locking.ModelMutex.lock resource =
      (StdLocks.ModelMutex.lock resource).translate mutexEffect >>= mutexGuard := by
  refine Program.call_congr fun hooked => ?_
  cases hooked with
  | false => rfl
  | true =>
    refine Program.call_congr fun threadId => ?_
    refine Program.call_congr fun _ => Program.call_congr fun engine => ?_
    cases engine with
    | false => rfl
    | true =>
      refine Program.call_congr fun attempt => ?_
      cases attempt with
      | acquired poisoned => rfl
      | wouldBlock => exact Program.call_congr fun reply => reply.elim

theorem modelMutex_tryLock_agrees (resource : UInt64) :
    Locking.ModelMutex.tryLock resource =
      Option.map (fun guard => .model guard.poisoned) <$>
        (StdLocks.ModelMutex.tryLock resource).translate mutexEffect := by
  refine Program.call_congr fun attempt => ?_
  cases attempt with
  | acquired poisoned =>
    refine Program.call_congr fun hooked => ?_
    cases hooked <;> rfl
  | wouldBlock => rfl

theorem modelMutex_drop_agrees (guard : StdLocks.Guard) (panicking : Bool) :
    Locking.ModelMutex.dropGuard guard.resource panicking = (guard.drop panicking).translate mutexEffect := by
  cases panicking with
  | true => rfl
  | false =>
    refine Program.call_congr fun hooked => ?_
    cases hooked <;> rfl

/-- How a use of the mutex stands. -/
def mutexUse : StdLocks.Use → Locking.MutexM Locking.Use
  | .idle => return .idle
  | .held guard => return .held (.model guard.poisoned)
  | .failed => return .failed
  | .panicked _ message => Locking.panic message
  | .dropped _ panicking => return .dropped panicking

/-- The operations on one model mutex. -/
def mutexOperation (resource : UInt64) : Locking.Operation → Option StdLocks.Operation
  | .lock => some (.lock resource)
  | .tryLock => some (.tryLock resource)
  | .drop panicking => some (.drop panicking)
  | .poll | .cancel => none

/-- A use of a model mutex goes on by the same programs. -/
theorem modelMutex_start_agrees {use : StdLocks.Use} {use' : Locking.Use} {resource : UInt64}
    (stands : mutexUse use = .done use') (own : ∀ guard, use = .held guard → guard.resource = resource)
    (operation : Locking.Operation) :
    Locking.start (.modelMutex resource) use' operation =
      ((mutexOperation resource operation).bind (StdLocks.start use)).map fun program =>
        program.translate mutexEffect >>= mutexUse := by
  cases use with
  | idle =>
    obtain rfl := Program.done.inj stands
    cases operation with
    | lock =>
      change some (Locking.ModelMutex.lock resource >>= _) =
        some ((StdLocks.ModelMutex.lock resource >>= _).translate _ >>= _)
      rw [modelMutex_lock_agrees, Program.translate_bind, Program.bind_bind, Program.bind_bind]
      refine congrArg some (congrArg (Program.bind _) (funext fun outcome => ?_))
      cases outcome with
      | ok guard => rfl
      | error message => exact Program.call_congr fun reply => reply.elim
    | tryLock =>
      change some (Locking.ModelMutex.tryLock resource >>= _) =
        some ((StdLocks.ModelMutex.tryLock resource >>= _).translate _ >>= _)
      rw [modelMutex_tryLock_agrees, Program.translate_bind, Program.map_eq, Program.bind_bind, Program.bind_bind]
      refine congrArg some (congrArg (Program.bind _) (funext fun outcome => ?_))
      cases outcome <;> rfl
    | drop | poll | cancel => rfl
  | held guard =>
    obtain rfl := Program.done.inj stands
    obtain rfl := own guard rfl
    cases operation with
    | drop panicking =>
      change some (Locking.ModelMutex.dropGuard guard.resource panicking >>= _) =
        some ((guard.drop panicking >>= _).translate _ >>= _)
      rw [modelMutex_drop_agrees, Program.translate_bind, Program.bind_bind]
      rfl
    | lock | tryLock | poll | cancel => rfl
  | failed | dropped =>
    obtain rfl := Program.done.inj stands
    cases operation <;> rfl
  | panicked => cases stands

/-! ## Whole threads -/

/-- The probe's lock hook is installed and no engine is, and no lock is poisoned. A thread waits for its locks. -/
def threadEffect (access : LockPrograms.Access) : (effect : StdLocks.Effect) → LockPrograms.ThreadM effect.Reply
  | .lockHook => return true
  | .spawnHook => return false
  | .report (.acquire resource) => LockPrograms.ProbeLockHook.acquire (Probe.resourceName resource)
  | .report (.release resource) => LockPrograms.ProbeLockHook.release (Probe.resourceName resource)
  | .take resource _ => do
      LockPrograms.perform (.take (Probe.resourceName resource) access)
      return false
  | .tryTake _ _ => return .wouldBlock
  | .give resource _ _ => LockPrograms.perform (.give (Probe.resourceName resource) access)

/-- The call of a model lock. -/
def modelCall : LockPrograms.Access → Option (UInt64 → StdLocks.StdLockM (Except String StdLocks.Guard))
  | .modelLock => some StdLocks.ModelMutex.lock
  | .modelRead => some StdLocks.ModelRwLock.read
  | .modelWrite => some StdLocks.ModelRwLock.write
  | .lock | .read | .write => none

/-- How the guard of a model lock holds the real one. -/
def modelMode (access : LockPrograms.Access) : StdLocks.Mode := if access.isShared then .shared else .exclusive

theorem modelCall_agrees {access : LockPrograms.Access}
    {call : UInt64 → StdLocks.StdLockM (Except String StdLocks.Guard)} (model : modelCall access = some call)
    (resource : UInt64) :
    (call resource).translate (threadEffect access) = (do
      let guard ← LockPrograms.acquire access (Probe.resourceName resource)
      return .ok { resource, mode := modelMode guard.access, poisoned := false }) := by
  cases access with
  | lock | read | write => cases model
  | modelLock | modelRead | modelWrite =>
    obtain rfl := Option.some.inj model
    rfl

theorem modelDrop_agrees (guard : StdLocks.Guard) (access : LockPrograms.Access) :
    (guard.drop false).translate (threadEffect access) =
      LockPrograms.Guard.drop ⟨Probe.resourceName guard.resource, access, none⟩ := rfl

/-! ## The tracked mutex in a thread -/

/-- A poisoned mutex makes the caller panic, which drops the real guard. -/
def trackedEffect : (effect : LockPrograms.Effect) → Locking.MutexM effect.Reply
  | .currentThreadId => Locking.perform .currentThreadId
  | .take _ _ => do
      if ← Locking.perform .lock then
        Locking.perform (.unlock true)
        Locking.panic "called `Result::unwrap()` on an `Err` value: PoisonError \x7b .. \x7d"
  | .give _ _ => Locking.perform (.unlock false)
  | .emit event => Locking.perform (.emit event)

theorem trackedStdMutex_lock_agrees (resourceName : String) :
    Locking.TrackedStdMutex.lock resourceName = (do
      let guard ← (LockPrograms.acquire .lock resourceName).translate trackedEffect
      return .tracked (guard.threadId.getD 0)) := by
  refine Program.call_congr fun threadId => ?_
  refine Program.call_congr fun poisoned => ?_
  cases poisoned with
  | false => rfl
  | true =>
    refine Program.call_congr fun _ => ?_
    exact Program.call_congr fun reply => reply.elim

theorem tracked_drop_agrees (resourceName : String) (threadId : UInt64) :
    Locking.dropTracked resourceName threadId false =
      (LockPrograms.Guard.drop ⟨resourceName, .lock, some threadId⟩).translate trackedEffect := rfl

end Laplace.Soundness
