import Laplace.Model.CloudSender

/-! # What becomes of an accepted event

An accepted event is queued, collected into the current batch and sent, and the three always add up to what was
accepted, in its order. Three steps take something out of the account: a send that fails clears its batch, a sender
whose first batch is too large to ask for drops the queue, and a process that is aborted drops both.
-/

namespace Laplace.Soundness.Sender

open Machine Model.Sender

variable {Event : Type} {config : ProbeClientConfig}

/-- Sent batches, the current one and the queue are the accepted events, each once and in order. -/
def Conserved (state : State Event) : Prop := state.sent.flatten ++ state.batch ++ state.queue = state.accepted

/-- In every state of the run the accepted events are accounted for, and a failed send leaves its batch. -/
structure Lossless (config : ProbeClientConfig) (actions : List (Action Event)) : Prop where
  conserved : ∀ past state, past <+: actions → run? (step config) {} past = some state → Conserved state
  retried : ∀ past state next, past ++ [.sendBatch false] <+: actions → run? (step config) {} past = some state →
    step config state (.sendBatch false) = some next → next.batch = state.batch

/-- The step is a send that fails, the first poll of a sender whose batch is larger than an allocation can be, with
events in the queue, or the abort of a process that has events to send. -/
def Loses (config : ProbeClientConfig) (state : State Event) : Action Event → Prop
  | .sendBatch false => state.phase = .sending
  | .start => state.phase = .starting ∧ ¬ config.fits ∧ state.queue ≠ []
  | .abort => state.phase ≠ .aborted ∧ state.batch ++ state.queue ≠ []
  | _ => False

/-! ## Steps -/

/-- The outcomes of a step, with what each of them needs. -/
inductive Moves (config : ProbeClientConfig) (state : State Event) : Action Event → State Event → Prop
  | refused (event : Event) : Moves config state (.emit event) state
  | accepted (event : Event) (room : state.queue.length < queueCapacity) :
      Moves config state (.emit event)
        { state with queue := state.queue ++ [event], accepted := state.accepted ++ [event] }
  | started (starting : state.phase = .starting) (fits : config.fits) :
      Moves config state .start { state with phase := .collecting }
  | panicked (starting : state.phase = .starting) (large : ¬ config.fits) :
      Moves config state .start { state with phase := .panicked, queue := [] }
  | received (event : Event) (queue : List Event) (collecting : state.phase = .collecting)
      (queued : state.queue = event :: queue) (room : state.batch.length + 1 < config.maxBatchSize) :
      Moves config state .recv { state with queue, batch := state.batch ++ [event] }
  | filled (event : Event) (queue : List Event) (collecting : state.phase = .collecting)
      (queued : state.queue = event :: queue) (full : config.maxBatchSize ≤ state.batch.length + 1) :
      Moves config state .recv { state with queue, batch := state.batch ++ [event], phase := .sending }
  | waited (collecting : state.phase = .collecting) (empty : state.batch = []) : Moves config state .deadline state
  | flushed (collecting : state.phase = .collecting) (some : state.batch ≠ []) :
      Moves config state .deadline { state with phase := .sending }
  | succeeded (sending : state.phase = .sending) :
      Moves config state (.sendBatch true)
        { state with phase := .collecting, batch := [], sent := state.sent ++ [state.batch] }
  | failed (sending : state.phase = .sending) :
      Moves config state (.sendBatch false) { state with phase := .collecting, batch := [] }
  | aborted (running : state.phase ≠ .aborted) :
      Moves config state .abort { state with phase := .aborted, queue := [], batch := [] }

theorem moves_of_step {state next : State Event} {action : Action Event} (stepped : step config state action = some next) :
    Moves config state action next := by
  obtain ⟨phase, queue, batch, sent, accepted⟩ := state
  cases action with
  | emit event =>
    simp only [step] at stepped
    split_ifs at stepped
    obtain rfl := Option.some.inj stepped
    rw [emit]
    split
    · exact .refused event
    · rename_i room
      exact .accepted event (Nat.lt_of_not_le fun full => room (.inr full))
  | start =>
    simp only [step] at stepped
    split_ifs at stepped with starting fits
    · obtain rfl := Option.some.inj stepped
      exact .started starting fits
    · obtain rfl := Option.some.inj stepped
      exact .panicked starting fits
  | recv =>
    cases phase with
    | collecting =>
      cases queue with
      | nil => cases stepped
      | cons event queue =>
        obtain rfl := Option.some.inj stepped
        by_cases full : config.maxBatchSize ≤ (batch ++ [event]).length
        · simp only [if_pos full]
          apply Moves.filled event queue rfl rfl
          simpa using full
        · simp only [if_neg full]
          apply Moves.received event queue rfl rfl
          simpa using full
    | starting => cases stepped
    | sending => cases stepped
    | panicked => cases stepped
    | aborted => cases stepped
  | deadline =>
    simp only [step] at stepped
    split_ifs at stepped with collecting empty
    · obtain rfl := Option.some.inj stepped
      obtain rfl : phase = .collecting := collecting
      exact .waited rfl empty
    · obtain rfl := Option.some.inj stepped
      exact .flushed collecting empty
  | sendBatch ok =>
    cases ok with
    | true =>
      simp only [step, ↓reduceIte] at stepped
      split_ifs at stepped with sending
      obtain rfl := Option.some.inj stepped
      exact .succeeded sending
    | false =>
      simp only [step, Bool.false_eq_true, ↓reduceIte] at stepped
      split_ifs at stepped with sending
      obtain rfl := Option.some.inj stepped
      exact .failed sending
  | abort =>
    simp only [step] at stepped
    split_ifs at stepped with gone
    obtain rfl := Option.some.inj stepped
    exact .aborted gone

/-! ## The loop -/

/-- What is being sent is not empty, a batch that is open has room, no batch is over its size, and no more is
queued than fits. -/
structure Batched (config : ProbeClientConfig) (state : State Event) : Prop where
  sending : state.phase = .sending → state.batch ≠ []
  room : state.phase ≠ .sending → state.batch = [] ∨ state.batch.length < config.maxBatchSize
  size : ∀ batch, batch ∈ state.sent ∨ batch = state.batch → batch.length ≤ max 1 config.maxBatchSize
  capacity : state.queue.length ≤ queueCapacity

theorem batched_init : Batched config ({} : State Event) := by
  constructor <;> simp

theorem Batched.step {state next : State Event} {action : Action Event} (batched : Batched config state)
    (moves : Moves config state action next) : Batched config next := by
  obtain ⟨sending, room, size, capacity⟩ := batched
  cases moves with
  | refused => exact ⟨sending, room, size, capacity⟩
  | accepted event below =>
    refine ⟨sending, room, size, ?_⟩
    simp only [List.length_append, List.length_singleton]
    omega
  | started starting => exact ⟨by simp, fun _ => room (by simp [starting]), size, capacity⟩
  | panicked starting => exact ⟨by simp, fun _ => room (by simp [starting]), size, by simp⟩
  | received event queue collecting queued below =>
    constructor
    · simp
    · simp [below]
    · rintro batch (member | rfl)
      · exact size batch (.inl member)
      · simp only [List.length_append, List.length_singleton]
        omega
    · simp only [queued, List.length_cons] at capacity
      exact Nat.le_of_succ_le capacity
  | filled event queue collecting queued full =>
    constructor
    · simp
    · simp
    · rintro batch (member | rfl)
      · exact size batch (.inl member)
      · -- the batch was open before this event
        have before := room (by simp [collecting])
        simp only [List.length_append, List.length_singleton]
        rcases before with empty | before
        · rw [empty, List.length_nil]
          omega
        · omega
    · simp only [queued, List.length_cons] at capacity
      exact Nat.le_of_succ_le capacity
  | waited => exact ⟨sending, room, size, capacity⟩
  | flushed collecting some => exact ⟨fun _ => some, by simp, size, capacity⟩
  | succeeded =>
    constructor
    · simp
    · simp
    · rintro batch (member | rfl)
      · rcases List.mem_append.mp member with member | member
        · exact size batch (.inl member)
        · exact size batch (.inr (List.mem_singleton.mp member))
      · exact Nat.zero_le _
    · exact capacity
  | failed =>
    constructor
    · simp
    · simp
    · rintro batch (member | rfl)
      · exact size batch (.inl member)
      · exact Nat.zero_le _
    · exact capacity
  | aborted =>
    constructor
    · simp
    · simp
    · rintro batch (member | rfl)
      · exact size batch (.inl member)
      · exact Nat.zero_le _
    · simp

/-- No run sends a batch over its size, or queues more than fits. -/
theorem batched_of_run {actions : List (Action Event)} {state : State Event}
    (reached : run? (step config) {} actions = some state) : Batched config state := by
  have advance : ∀ (state : State Event) action next, True → Batched config state → step config state action = some next →
      Batched config next := by
    intro state action next _ batched stepped
    exact batched.step (moves_of_step stepped)
  exact run?_invariant (Batched config) batched_init advance reached (fun _ _ => trivial)

/-- A step keeps the account exactly if it does not lose. -/
theorem conserved_step {state next : State Event} {action : Action Event} (batched : Batched config state)
    (conserved : Conserved state) (moves : Moves config state action next) :
    Conserved next ↔ ¬ Loses config state action := by
  rw [Conserved] at conserved ⊢
  cases moves with
  | refused => simpa [Loses] using conserved
  | accepted event =>
    rw [← conserved]
    simp [Loses]
  | started starting fits => simpa [Loses, fits] using conserved
  | panicked starting large =>
    rw [← conserved]
    simp [Loses, starting, large]
  | received event queue collecting queued =>
    rw [← conserved, queued]
    simp [Loses]
  | filled event queue collecting queued =>
    rw [← conserved, queued]
    simp [Loses]
  | waited => simpa [Loses] using conserved
  | flushed => simpa [Loses] using conserved
  | succeeded =>
    rw [← conserved]
    simp [Loses]
  | failed sending =>
    have some := batched.sending sending
    rw [← conserved]
    simp [Loses, sending, some]
  | aborted running =>
    rw [← conserved]
    simp [Loses, running]

/-- A step that loses is one that is taken. -/
theorem Loses.enabled {state : State Event} {action : Action Event} (loses : Loses config state action) :
    ∃ next, step config state action = some next := by
  cases action with
  | emit => exact loses.elim
  | start => exact ⟨_, by rw [step, if_pos loses.1, if_neg loses.2.1]⟩
  | recv => exact loses.elim
  | deadline => exact loses.elim
  | sendBatch ok =>
    cases ok with
    | true => exact loses.elim
    | false => exact ⟨_, if_pos loses⟩
  | abort => exact ⟨_, if_neg loses.1⟩

/-- A run whose steps lose nothing has every accepted event on its account. -/
theorem conserved_of_run {actions : List (Action Event)} {state : State Event}
    (keeps : Along (step config) (fun state action => ¬ Loses config state action) {} actions)
    (reached : run? (step config) {} actions = some state) : Conserved state := by
  apply And.right (a := Batched config state)
  apply along_invariant (fun state => Batched config state ∧ Conserved state) _ ⟨batched_init, rfl⟩ reached keeps
  rintro state action next kept ⟨batched, conserved⟩ stepped
  have moves := moves_of_step stepped
  exact ⟨batched.step moves, (conserved_step batched conserved moves).mpr kept⟩

/-- **Where no accepted event is lost.** In every run, the accepted events are at every time those sent, batched and
queued, each once and in order, and failed sends leave their batches, exactly if no send fails, the sender does not
panic on the size of its batch with events in the queue, and the process is not aborted with events to send. -/
theorem sender_lossless_exact (config : ProbeClientConfig) (actions : List (Action Event)) :
    Lossless config actions ↔ Along (step config) (fun state action => ¬ Loses config state action) {} actions := by
  constructor
  · intro lossless
    apply along_iff.mpr
    rintro past action rest state rfl reached loses
    obtain ⟨next, stepped⟩ := loses.enabled
    have part : past ++ [action] <+: past ++ action :: rest := ⟨rest, by simp⟩
    have before := lossless.conserved past state ((List.prefix_append past [action]).trans part) reached
    have after : Conserved next := by
      apply lossless.conserved (past ++ [action]) next part
      rw [run?_snoc, reached]
      exact stepped
    exact (conserved_step (batched_of_run reached) before (moves_of_step stepped)).mp after loses
  · intro keeps
    constructor
    · rintro past state ⟨rest, rfl⟩ reached
      exact conserved_of_run keeps.take reached
    · rintro past state next ⟨rest, rfl⟩ reached stepped
      have kept := along_iff.mp keeps past (.sendBatch false) rest state (by simp) reached
      cases moves_of_step stepped with
      | failed sending => exact absurd sending kept

/-- One event, collected by its deadline, and a transport that is not there. -/
def unreachableEdge : List (Action ℕ) := [.emit 7, .start, .recv, .deadline, .sendBatch false]

/-- The event is in no batch and in no queue afterwards. -/
theorem unreachableEdge_loses :
    (run? (step ⟨32⟩) {} unreachableEdge).map (fun state => (state.sent, state.batch, state.queue, state.accepted)) =
      some ([], [], [], [7]) ∧ ¬ Lossless ⟨32⟩ unreachableEdge := by
  constructor
  · decide
  · intro lossless
    have conserved := lossless.conserved unreachableEdge _ (List.prefix_refl _) rfl
    revert conserved
    simp [Conserved, emit, queueCapacity]

end Laplace.Soundness.Sender
