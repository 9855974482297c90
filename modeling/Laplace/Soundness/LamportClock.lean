import Laplace.Machine.LogicalClock
import Laplace.Model.Tracing

/-! # The clock condition

The stamps of a run are those of a logical clock over the threads. The increment wraps and the synchronization
saturates at `u64::MAX`, which no clock reaches in a run of fewer than `2^64` events, so the stamps rise along every
causal chain and `happens_before` orders what the chain orders.
-/

namespace Laplace.Soundness.Tracing

open Machine Machine.LogicalClock Model.Tracing
open Laplace.Model.Runtime (saturatingAdd)

/-- The clock of a thread. -/
def lamport : Clock LamportTimestamp where
  zero := .zero
  tick := .increment
  sync := .sync

theorem lamport_sync (timestamp remote : LamportTimestamp) :
    lamport.sync timestamp remote = timestamp.sync remote := rfl

def count (timestamp : LamportTimestamp) : ℕ := timestamp.time.toNat

/-- `u64::MAX` -/
def maximum : ℕ := UInt64.size - 1

variable {Thread : Type} [DecidableEq Thread]

/-- What the causal order needs of an entry. -/
def stamped (entry : Entry Thread) : Stamped Thread LamportTimestamp :=
  ⟨entry.thread, entry.source, entry.event.timestamp⟩

omit [DecidableEq Thread] in
theorem stamp_stamped (entry : Entry Thread) : (stamped entry).stamp = entry.event.timestamp := rfl

/-- The event causally precedes the other one: program order, message edges and their transitive closure. -/
def CausallyPrecedes (log : List (Entry Thread)) : ℕ → ℕ → Prop := Precedes (log.map stamped)

/-- The step finds the clock at its last value, where the increment wraps and the synchronization saturates. -/
def Overflows (state : State Thread) : Action Thread → Prop
  | .localEvent thread _ _ => count (state.clock thread) = maximum
  | .receive thread source _ _ => ∃ sent, state.log[source]? = some sent ∧
      max (count (state.clock thread)) (count sent.event.timestamp) = maximum

/-- `happens_before` holds along the causal order. -/
def ClockCondition (log : List (Entry Thread)) : Prop :=
  ∀ first second event effect, CausallyPrecedes log first second → log[first]? = some event →
    log[second]? = some effect → event.event.happensBefore effect.event = true

/-! ## The operations -/

theorem count_increment {timestamp : LamportTimestamp} (below : count timestamp < maximum) :
    count timestamp.increment = count timestamp + 1 := by
  change (timestamp.time + 1).toNat = _
  simp only [count, maximum] at below ⊢
  rw [UInt64.toNat_add]
  change (_ + 1) % UInt64.size = _
  apply Nat.mod_eq_of_lt
  omega

theorem toNat_max (first second : UInt64) : (max first second).toNat = max first.toNat second.toNat := by
  have unfolded : max first second = if first ≤ second then second else first := rfl
  rw [unfolded]
  split
  · rename_i ordered
    exact (Nat.max_eq_right (UInt64.le_iff_toNat_le.mp ordered)).symm
  · rename_i ordered
    have reversed : ¬ first.toNat ≤ second.toNat := fun below => ordered (UInt64.le_iff_toNat_le.mpr below)
    omega

theorem toNat_saturatingAdd {first second : UInt64} (below : first.toNat + second.toNat ≤ maximum) :
    (saturatingAdd first second).toNat = first.toNat + second.toNat := by
  have least : min (first.toNat + second.toNat) Model.Runtime.u64Max = first.toNat + second.toNat :=
    Nat.min_eq_left below
  rw [saturatingAdd, UInt64.toNat_ofNat', least]
  exact Nat.mod_eq_of_lt (Nat.lt_succ_of_le below)

theorem count_sync {timestamp remote : LamportTimestamp} (below : count timestamp < maximum)
    (below' : count remote < maximum) : count (timestamp.sync remote) = max (count timestamp) (count remote) + 1 := by
  simp only [count] at below below' ⊢
  have later := toNat_max timestamp.time remote.time
  have one : (1 : UInt64).toNat = 1 := rfl
  rw [LamportTimestamp.sync, toNat_saturatingAdd, later, one]
  rw [later, one]
  omega

theorem counts_lamport : Counts lamport count maximum where
  zero := rfl
  tick := fun _ below => count_increment below
  sync := fun _ _ below below' => count_sync below below'

/-! ## Runs -/

variable {threadId : Thread → ThreadId}

/-- The clocks and the log of a state are those of a logical clock. -/
def IsHistory (state : State Thread) : Prop := History lamport state.clock (state.log.map stamped)

theorem timestamp_event (metadata : EventMetadata) (happening : Happening) :
    (happening.event metadata).timestamp = metadata.timestamp := by cases happening <;> rfl

/-- An event adds itself to the log, stamped with the clock of its thread. -/
theorem stamped_record (state : State Thread) (thread : Thread) (source : Option ℕ) (seqNum : UInt64)
    (happening : Happening) (timestamp : LamportTimestamp) :
    (state.record threadId thread source seqNum happening timestamp).log.map stamped =
      state.log.map stamped ++ [⟨thread, source, timestamp⟩] := by
  rw [State.record, List.map_append, List.map_singleton, stamped, timestamp_event]

theorem isHistory_step {state next : State Thread} {action : Action Thread} (history : IsHistory state)
    (stepped : step threadId state action = some next) : IsHistory next := by
  cases action with
  | localEvent thread seqNum happening =>
    obtain rfl := Option.some.inj stepped
    rw [IsHistory, stamped_record]
    exact history.internal thread
  | receive thread source seqNum happening =>
    obtain ⟨sent, here, rfl⟩ := Option.map_eq_some_iff.mp stepped
    have caused : (state.log.map stamped)[source]? = some (stamped sent) := by
      rw [List.getElem?_map, here]
      rfl
    have next := history.caused thread caused
    rw [lamport_sync, stamp_stamped] at next
    rw [IsHistory, stamped_record]
    exact next

theorem length_step {state next : State Thread} {action : Action Thread}
    (stepped : step threadId state action = some next) :
    next.log.length = state.log.length + 1 := by
  cases action with
  | localEvent thread seqNum happening =>
    obtain rfl := Option.some.inj stepped
    exact List.length_append
  | receive thread source seqNum happening =>
    obtain ⟨sent, here, rfl⟩ := Option.map_eq_some_iff.mp stepped
    exact List.length_append

theorem isHistory_run {actions : List (Action Thread)} {final : State Thread}
    (reached : run? (step threadId) {} actions = some final) : IsHistory final ∧ final.log.length = actions.length := by
  have any : ∀ action ∈ actions, True := fun _ _ => trivial
  apply run?_induct (fun past state => IsHistory state ∧ state.log.length = past.length) ?_ ?_ reached any
  · exact ⟨.start, rfl⟩
  · rintro past state action next _ _ ⟨history, length⟩ stepped
    refine ⟨isHistory_step history stepped, ?_⟩
    rw [length_step stepped, length, List.length_append, List.length_singleton]

/-- While the log is shorter than the last value of a clock, no step overflows. -/
theorem not_overflows {state : State Thread} (history : IsHistory state) (short : state.log.length < maximum)
    (action : Action Thread) : ¬ Overflows state action := by
  have short' : (state.log.map stamped).length ≤ maximum := by
    rw [List.length_map]
    omega
  cases action with
  | localEvent thread seqNum happening =>
    intro last
    have bound := history.bounded counts_lamport short' thread
    rw [List.length_map, last] at bound
    omega
  | receive thread source seqNum happening =>
    rintro ⟨sent, here, last⟩
    have bound := history.bounded counts_lamport short' thread
    have bound' := history.stamp_bounded counts_lamport short' (List.mem_map_of_mem (List.mem_of_getElem? here))
    rw [List.length_map] at bound bound'
    change count sent.event.timestamp ≤ state.log.length at bound'
    omega

/-- In every run of fewer than `2^64` events no clock overflows, and `happens_before` holds along the causal order. -/
theorem clockCondition_of_run (threadId : Thread → ThreadId) {actions : List (Action Thread)} {final : State Thread}
    (reached : run? (step threadId) {} actions = some final) (short : final.log.length < UInt64.size) :
    ClockCondition final.log ∧ Along (step threadId) (fun state action => ¬ Overflows state action) {} actions := by
  obtain ⟨history, length⟩ := isHistory_run reached
  constructor
  · intro first second event effect precedes here here'
    have short' : (final.log.map stamped).length ≤ maximum := by
      rw [List.length_map, maximum]
      omega
    have at' : (final.log.map stamped)[first]? = some (stamped event) := by rw [List.getElem?_map, here]; rfl
    have at'' : (final.log.map stamped)[second]? = some (stamped effect) := by rw [List.getElem?_map, here']; rfl
    have rises := history.precedes counts_lamport short' precedes at' at''
    exact decide_eq_true (UInt64.lt_iff_toNat_lt.mpr rises)
  · rw [along_iff]
    rintro past action rest state rfl reached'
    obtain ⟨history', length'⟩ := isHistory_run reached'
    apply not_overflows history'
    rw [length', maximum]
    rw [length, List.length_append, List.length_cons] at short
    omega

/-- A thread spawns another one, whose first event is caused by the spawn. -/
theorem clockCondition_spawn :
    ∃ final : State Bool, run? (step fun thread => ⟨if thread then 1 else 0⟩) {}
      [.localEvent false 0 (.threadSpawn ⟨1⟩), .receive true 0 0 (.memory (.fence .seqCst))] = some final ∧
      ClockCondition final.log := by
  refine ⟨_, rfl, ?_⟩
  apply And.left
  exact clockCondition_of_run (fun thread => ⟨if thread then 1 else 0⟩)
    (rfl : run? _ _ [.localEvent false 0 (.threadSpawn ⟨1⟩), .receive true 0 0 (.memory (.fence .seqCst))] = some _)
    (by decide)

end Laplace.Soundness.Tracing
