import Laplace.Machine.Run

/-! # The cloud sender

`ProbeClient` queues raw events without blocking, and a background task collects them into batches, each closed by
its size or by the flush deadline, and sends a batch over a connection of its own. Callers and the task take steps
in any order; a deadline may expire at any time, each send succeeds or fails as the transport has it, and each
allocation as the allocator has it.
-/

namespace Laplace.Model.Sender

/-- Capacity of the `mpsc` channel that `connect` makes. -/
def queueCapacity : ℕ := 4096

structure ProbeClientConfig where
  maxBatchSize : ℕ
deriving DecidableEq, Repr

/-- `isize::MAX` -/
def isizeMax : ℕ := 0x7fffffffffffffff

/-- `Vec::with_capacity` panics on more bytes than `isize::MAX`; a raw event has 128. Below that it may still fail. -/
def ProbeClientConfig.fits (config : ProbeClientConfig) : Prop := config.maxBatchSize * 128 ≤ isizeMax

instance (config : ProbeClientConfig) : Decidable config.fits := inferInstanceAs (Decidable (_ ≤ _))

inductive Phase where
  /-- The task is spawned and has not been polled. -/
  | starting
  | collecting
  /-- `send_batch` is under way. -/
  | sending
  | panicked
  /-- The process is gone. -/
  | aborted
deriving DecidableEq, Repr

/-- `accepted` are the events for which `try_send` succeeded, `sent` the batches for which `send_batch` did. -/
structure State (Event : Type) where
  phase : Phase := .starting
  queue : List Event := []
  batch : List Event := []
  sent : List (List Event) := []
  accepted : List Event := []
deriving DecidableEq, Repr

inductive Action (Event : Type) where
  | emit (event : Event)
  /-- The first poll of the task. -/
  | start
  | recv
  | deadline
  /-- `send_batch` returns. -/
  | sendBatch (ok : Bool)
  /-- An allocation fails, that of the first batch in place of `start` or a later one, and `handle_alloc_error` aborts
  the process. -/
  | abort
deriving DecidableEq, Repr

variable {Event : Type}

/-- `try_send` fails when the queue is full, and when the task is gone and the receiver with it. -/
def emit (state : State Event) (event : Event) : State Event :=
  if state.phase = .panicked ∨ queueCapacity ≤ state.queue.length then state
  else { state with queue := state.queue ++ [event], accepted := state.accepted ++ [event] }

def step (config : ProbeClientConfig) (state : State Event) : Action Event → Option (State Event)
  | .emit event => if state.phase = .aborted then none else some (emit state event)
  | .start =>
    if state.phase = .starting then
      -- a panic drops the receiver, with all that is queued
      if config.fits then some { state with phase := .collecting }
      else some { state with phase := .panicked, queue := [] }
    else none
  | .recv =>
    match state.phase, state.queue with
    | .collecting, event :: queue =>
      let batch := state.batch ++ [event]
      some { state with queue, batch, phase := if config.maxBatchSize ≤ batch.length then .sending else .collecting }
    | _, _ => none
  | .deadline =>
    if state.phase = .collecting then
      -- an empty batch is not sent
      some { state with phase := if state.batch = [] then .collecting else .sending }
    else none
  | .sendBatch ok =>
    if state.phase = .sending then
      -- `batch.clear()` stands after the error has been logged, and is reached from both outcomes
      some { state with
        phase := .collecting
        batch := []
        sent := if ok then state.sent ++ [state.batch] else state.sent }
    else none
  | .abort =>
    if state.phase = .aborted then none
    -- nothing was written down anywhere
    else some { state with phase := .aborted, queue := [], batch := [] }

end Laplace.Model.Sender
