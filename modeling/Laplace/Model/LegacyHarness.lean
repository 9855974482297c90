import Laplace.Machine.Run

/-! # The legacy test harnesses

The tests that `#[axiom_target(threads = N)]` and `#[laplace_byoc_test]` generate: a bounded channel,
worker threads that register a clone of its sender and emit, and a test thread that starts them, joins
them, and drains the channel at the end. `set_probe_sender` leaves a clone in the process-wide slot besides
the thread's own. A thread takes one step at a time; a step that would block is not enabled.

User code of a worker is the number of events that it emits before it returns.
-/

namespace Laplace.Model.Legacy

inductive Worker where
  /-- The closure owns its sender. -/
  | spawned (events : ℕ)
  /-- `set_probe_sender` has filled the thread's own slot. -/
  | registering (events : ℕ)
  /-- Both slots are filled; so many events are still to be emitted. -/
  | emitting (events : ℕ)
  | exited
deriving DecidableEq, Repr

/-- What the test thread still has to do. -/
inductive MainStep where
  | spawn (events : ℕ)
  | join (index : ℕ)
  /-- Drop the test thread's own sender. -/
  | dropTx
  | clearProbeSender
  /-- `rx.into_iter().collect()`. -/
  | collect
deriving DecidableEq, Repr

structure State where
  main : List MainStep
  workers : List Worker := []
  /-- Events in the channel. -/
  buffered : ℕ := 0
  /-- The test thread's own sender. -/
  tx : Bool := true
  /-- A sender of this channel in `GLOBAL_PROBE_SENDER`. -/
  globalProbeSender : Bool := false
deriving DecidableEq, Repr

/-- The threads of the test. -/
inductive Thread where
  | main
  | worker (index : ℕ)
deriving DecidableEq, Repr

/-- The bound of `sync_channel`. A channel without a buffer hands over to a receiver that waits. -/
def State.hasRoom (capacity : ℕ) (state : State) : Bool :=
  state.buffered < capacity || (capacity == 0 && state.buffered == 0 && state.main.head? == some .collect)

/-- Whether a sender of the channel is alive. -/
def State.hasSender (state : State) : Bool :=
  state.tx || state.globalProbeSender || state.workers.any (· ≠ .exited)

/-- One step of a worker: registration, one `emit`, or the end of the thread, which drops its own sender. -/
def workerStep (capacity : ℕ) (state : State) (index : ℕ) : Option State :=
  match state.workers[index]? with
  | some (.spawned events) =>
      some { state with workers := state.workers.set index (.registering events) }
  | some (.registering events) =>
      some { state with workers := state.workers.set index (.emitting events), globalProbeSender := true }
  | some (.emitting (events + 1)) =>
      if state.hasRoom capacity then
        some { state with workers := state.workers.set index (.emitting events), buffered := state.buffered + 1 }
      else none
  | some (.emitting 0) => some { state with workers := state.workers.set index .exited }
  | some .exited | none => none

/-- One step of the test thread. The receiver iterates until every sender is dropped. -/
def mainStep (state : State) : Option State :=
  match state.main with
  | [] => none
  | .spawn events :: rest => some { state with main := rest, workers := state.workers ++ [.spawned events] }
  | .join index :: rest =>
      if state.workers[index]? = some .exited then some { state with main := rest } else none
  | .dropTx :: rest => some { state with main := rest, tx := false }
  | .clearProbeSender :: rest => some { state with main := rest, globalProbeSender := false }
  | .collect :: rest =>
      match state.buffered with
      | buffered + 1 => some { state with buffered }
      | 0 => if state.hasSender then none else some { state with main := rest }

def step (capacity : ℕ) (state : State) : Thread → Option State
  | .main => mainStep state
  | .worker index => workerStep capacity state index

/-- The test thread is blocked and no thread can take another step. -/
def Stuck (capacity : ℕ) (state : State) : Prop :=
  state.main ≠ [] ∧ ∀ thread, step capacity state thread = none

def NeverStuck (capacity : ℕ) (start : State) : Prop :=
  ∀ schedule state, Machine.run? (step capacity) start schedule = some state → ¬ Stuck capacity state

/-- The bound of the channel in the test of `axiom_target`. -/
def axiomTargetBuffer : ℕ := 4096

/-- The test of `#[axiom_target(threads = N)]`: one worker for each entry. -/
def axiomTarget (events : List ℕ) : State where
  main := events.map .spawn ++ .dropTx ::
    ((List.range' 0 events.length).map .join ++ [.clearProbeSender, .collect])

/-- What the body of a `#[laplace_byoc_test]` does with its threads. -/
inductive BodyStep where
  /-- `byoc_thread!`. -/
  | byocThread (events : ℕ)
  | join (index : ℕ)
deriving DecidableEq, Repr

def BodyStep.main : BodyStep → MainStep
  | .byocThread events => .spawn events
  | .join index => .join index

/-- The body joins every thread that it starts, and once. -/
def joinsAll : (running : List ℕ) → (started : ℕ) → List BodyStep → Bool
  | running, _, [] => running.isEmpty
  | running, started, .byocThread _ :: rest => joinsAll (started :: running) (started + 1) rest
  | running, started, .join index :: rest => running.contains index && joinsAll (running.erase index) started rest

/-- The test of `#[laplace_byoc_test]`. -/
def byocTest (body : List BodyStep) : State where
  main := body.map BodyStep.main ++ [.dropTx, .collect]

end Laplace.Model.Legacy
