import Laplace.Model.CaptureSession
import Laplace.Model.LockPrograms
import Laplace.Model.Reference

/-! # The generated test of `threads` mode

The test thread is thread 0 of the process, and worker `i` is thread `i + 1`. The test thread begins a session, spawns
the workers one after another, joins them in this order, finishes the session and checks what was captured. A worker
sets its probe thread id to its number and runs the function, whose tracked locks emit into the session. An emission is
cut into its atomic steps, as the calls of a session are. Other threads of the process may begin and finish sessions of
their own meanwhile; they emit nothing and install no legacy sender.

Spawning does not fail on the test thread, and no function panics.
-/

namespace Laplace.Model.VerifyTest

open LockPrograms

/-- The argument `expected`. -/
inductive Expected where
  | clean
  | bug
deriving DecidableEq, Repr

/-- A function with `#[laplace_sdk::verify(threads = N)]`. -/
structure Test where
  threads : ℕ
  valid : 1 ≤ threads ∧ threads ≤ 8
  /-- What the function does with its locks when this worker runs it. -/
  commands : Fin threads → List Command
  /-- The harness installs no lock hook. -/
  tracked : ∀ worker access resource, .acquire access resource ∈ commands worker → access.isHooked = false
  targetName : String
  expected : Option Expected
  config : ProbeSessionConfig

section Threads

variable {threads : ℕ}

/-- The worker's thread in the process. -/
def tid (worker : Fin threads) : Capture.Tid := worker + 1

/-- `set_probe_thread_id(i as u64)`. -/
def probeThreadId (worker : Fin threads) : UInt64 := UInt64.ofNat worker

/-- Where the test thread stands. -/
inductive TestStage where
  /-- Before `begin` returns. -/
  | beginning
  /-- So many workers are spawned, and so many joined. -/
  | running (spawned joined : ℕ)
  /-- In `finish`. -/
  | finishing
  | finished (events : List ProbeEvent)
deriving DecidableEq, Repr

structure State (threads : ℕ) where
  capture : Capture.State := {}
  /-- The holders of the real locks. -/
  holders : List (Fin threads × String × Access) := []
  /-- What each worker has still to do. -/
  program : Fin threads → ThreadM Unit
  stage : TestStage := .beginning

inductive Action (threads : ℕ) where
  /-- A step inside a call of the probe, or of a collector. -/
  | capture (action : Capture.Action)
  /-- `begin` returns. -/
  | begun
  | spawn
  | join
  /-- `finish` is called. -/
  | finish
  /-- A worker performs its next effect. -/
  | work (worker : Fin threads)
deriving DecidableEq, Repr

/-- The calls that the steps of `Capture` are parts of. -/
inductive Call where
  | begin
  | beginFails
  | finish
  | dropSession
  | emitStart
  | emit
  | setProbeSender
  | clearProbeSender
deriving DecidableEq, Repr

/-- The thread and the call that a step belongs to. A collector is no caller. -/
def call? : Capture.Action → Option (Capture.Tid × Call)
  | .beginLock thread | .beginReset thread | .beginSlotLock thread | .beginInstall thread | .beginSpawn thread =>
      some (thread, .begin)
  | .beginSpawnFailed thread => some (thread, .beginFails)
  | .tearLock thread finish => some (thread, if finish then .finish else .dropSession)
  | .tearClear thread | .tearJoin thread | .tearRelease thread => some (thread, .finish)
  | .emitStart thread _ => some (thread, .emitStart)
  | .emitCheckGlobal thread | .emitSlotMissing thread | .emitSlotLock thread | .emitSend thread => some (thread, .emit)
  | .setProbeSender thread _ | .setProbeSenderReset thread | .setProbeSenderGlobal thread =>
      some (thread, .setProbeSender)
  | .clearProbeSender thread | .clearProbeSenderGlobal thread => some (thread, .clearProbeSender)
  | .collect _ | .collectEnd _ => none

def TestStage.isRunning : TestStage → Bool
  | .running .. => true
  | _ => false

/-- The calls of the test thread, of the workers, and of the other threads. -/
def mayCall (threads : ℕ) (stage : TestStage) : Option (Capture.Tid × Call) → Bool
  | none => true
  | some (0, .begin) => stage == .beginning
  | some (0, .finish) => stage == .finishing
  | some (0, _) => false
  | some (thread + 1, call) =>
      if thread < threads then stage.isRunning && call == .emit
      else call != .emitStart && call != .emit && call != .setProbeSender

/-- The last step of the test thread's `finish` returns the vector. -/
def TestStage.after (stage : TestStage) (capture : Capture.State) : Capture.Action → TestStage
  | .tearRelease 0 =>
      match capture.pcs 0 with
      | .joined _ _ events => .finished events
      | _ => stage
  | _ => stage

/-- A worker goes on to its next effect. Its emissions are calls of `emit`. -/
def State.perform (state : State threads) (worker : Fin threads) : ThreadM Unit → Option (State threads)
  | .done _ => none
  | .call (.emit event) next =>
      (Capture.step state.capture (.emitStart (tid worker) event)).map fun capture =>
        { state with capture, program := Function.update state.program worker (next ()) }
  | .call effect next =>
      (World.answer probeThreadId { holders := state.holders } worker effect).map fun (reply, world) =>
        { state with
          holders := world.holders
          program := Function.update state.program worker (next reply) }

/-- The worker's thread has ended. -/
def State.isDone (state : State threads) (worker : Fin threads) : Bool :=
  match state.program worker, state.capture.pcs (tid worker) with
  | .done _, .idle => true
  | _, _ => false

def step (state : State threads) : Action threads → Option (State threads)
  | .capture action =>
      if mayCall threads state.stage (call? action) then
        (Capture.step state.capture action).map fun capture =>
          { state with capture, stage := state.stage.after state.capture action }
      else none
  | .begun =>
      match state.stage, state.capture.sessions 0, state.capture.pcs 0 with
      | .beginning, some _, .idle => some { state with stage := .running 0 0 }
      | _, _, _ => none
  | .spawn =>
      match state.stage with
      | .running spawned joined =>
          if spawned < threads then some { state with stage := .running (spawned + 1) joined } else none
      | _ => none
  | .join =>
      match state.stage with
      | .running spawned joined =>
          if ended : joined < threads then
            if spawned = threads ∧ state.isDone ⟨joined, ended⟩ then
              some { state with stage := .running spawned (joined + 1) }
            else none
          else none
      | _ => none
  | .finish =>
      match state.stage with
      | .running _ joined => if joined = threads then some { state with stage := .finishing } else none
      | _ => none
  | .work worker =>
      match state.stage with
      | .running spawned _ =>
          if worker < spawned ∧ state.capture.pcs (tid worker) = .idle then
            state.perform worker (state.program worker)
          else none
      | _ => none

end Threads

inductive Outcome where
  | passed
  | panicked
deriving DecidableEq, Repr

/-- `VerifyResult::assert_clean`. -/
def assertClean (result : VerifyResult) : Outcome :=
  match result.verdict with
  | .clean => .passed
  | .bugFound _ => .panicked

/-- `VerifyResult::assert_bug`. -/
def assertBug (result : VerifyResult) : Outcome :=
  match result.verdict with
  | .bugFound _ => .passed
  | .clean => .panicked

namespace Test

variable (test : Test)

/-- The process when the test starts. -/
def initial : State test.threads where
  program worker := body [] (test.commands worker)

/-- The tail of the test. An empty capture is let pass only where nothing was declared. -/
def outcome (events : List ProbeEvent) : Outcome :=
  if events.isEmpty then
    if test.expected.isSome then .panicked else .passed
  else
    match test.expected.getD .clean with
    | .clean => assertClean (runVerificationFrom events test.targetName test.config)
    | .bug => assertBug (runVerificationFrom events test.targetName test.config)

/-- Some schedule ends the test with these events. -/
def Captured (events : List ProbeEvent) : Prop :=
  ∃ actions state, Machine.run? step test.initial actions = some state ∧ state.stage = .finished events

end Test

end Laplace.Model.VerifyTest
