import Mathlib.Data.Nat.Notation
import Mathlib.Logic.Function.Basic
import Mathlib.Logic.Relation

/-! # Logical clocks

Agents stamp their events from clocks of their own: an internal event after a tick, an event caused by another one
after a synchronization with its stamp. Over the natural numbers the stamps rise along every causal chain and no
stamp exceeds the number of events. A clock of machine integers that computes the same up to a bound keeps the same
stamps in every history no longer than the bound.
-/

namespace Laplace.Machine.LogicalClock

/-- The operations of a clock. -/
structure Clock (Time : Type*) where
  zero : Time
  tick : Time → Time
  sync : Time → Time → Time

/-- An event with its stamp and the place of the event that caused it. -/
structure Stamped (Agent Time : Type*) where
  agent : Agent
  source : Option ℕ
  stamp : Time

variable {Agent Time : Type*} [DecidableEq Agent]

/-- The clocks that the agents have after a history, and the history. -/
inductive History (clock : Clock Time) : (Agent → Time) → List (Stamped Agent Time) → Prop
  | start : History clock (fun _ => clock.zero) []
  | internal {now : Agent → Time} {past : List (Stamped Agent Time)} (earlier : History clock now past)
      (agent : Agent) :
      History clock (Function.update now agent (clock.tick (now agent)))
        (past ++ [⟨agent, none, clock.tick (now agent)⟩])
  | caused {now : Agent → Time} {past : List (Stamped Agent Time)} (earlier : History clock now past) (agent : Agent)
      {source : ℕ} {cause : Stamped Agent Time} (happened : past[source]? = some cause) :
      History clock (Function.update now agent (clock.sync (now agent) cause.stamp))
        (past ++ [⟨agent, some source, clock.sync (now agent) cause.stamp⟩])

/-- The first event comes right before the second in the causal order: on one agent, or as its cause. -/
def Edge (history : List (Stamped Agent Time)) (first second : ℕ) : Prop :=
  first < second ∧ ∃ event effect, history[first]? = some event ∧ history[second]? = some effect ∧
    (event.agent = effect.agent ∨ effect.source = some first)

/-- Program order, causes and their transitive closure. -/
def Precedes (history : List (Stamped Agent Time)) : ℕ → ℕ → Prop := Relation.TransGen (Edge history)

/-! ## The ideal clock -/

/-- A clock that counts without a limit. -/
def counting : Clock ℕ where
  zero := 0
  tick := (· + 1)
  sync := fun local' remote => max local' remote + 1

/-- The clocks are at most the number of events, no event is ahead of its agent, and the stamps rise along edges. -/
structure Rising (now : Agent → ℕ) (history : List (Stamped Agent ℕ)) : Prop where
  bounded : ∀ agent, now agent ≤ history.length
  behind : ∀ event ∈ history, event.stamp ≤ now event.agent
  edges : ∀ first second event effect, Edge history first second → history[first]? = some event →
    history[second]? = some effect → event.stamp < effect.stamp

omit [DecidableEq Agent] in
theorem rising_start : Rising (fun _ : Agent => 0) [] where
  bounded := fun _ => Nat.le_refl _
  behind := by simp
  edges := by simp

/-- An event that is stamped above its agent's clock and its cause, and not above the number of events. -/
theorem Rising.append {now : Agent → ℕ} {past : List (Stamped Agent ℕ)} (rising : Rising now past)
    (event : Stamped Agent ℕ) (ahead : now event.agent < event.stamp) (bound : event.stamp ≤ past.length + 1)
    (after : ∀ source cause, event.source = some source → past[source]? = some cause → cause.stamp < event.stamp) :
    Rising (Function.update now event.agent event.stamp) (past ++ [event]) where
  bounded := by
    intro agent
    rw [List.length_append, List.length_singleton]
    by_cases own : agent = event.agent
    · rw [own, Function.update_self]
      exact bound
    · rw [Function.update_of_ne own]
      have := rising.bounded agent
      omega
  behind := by
    intro other member
    rcases List.mem_append.mp member with earlier | last
    · have before := rising.behind other earlier
      by_cases own : other.agent = event.agent
      · rw [own, Function.update_self]
        rw [own] at before
        omega
      · rw [Function.update_of_ne own]
        exact before
    · obtain rfl := List.mem_singleton.mp last
      have same : Function.update now other.agent other.stamp other.agent = other.stamp := Function.update_self _ _ _
      exact Nat.le_of_eq same.symm
  edges := by
    rintro first second earlier effect ⟨ordered, before⟩ here here'
    -- the second event is the new one, or the edge is an edge of the past
    have inside : second < (past ++ [event]).length := (List.getElem?_eq_some_iff.mp here').1
    rw [List.length_append, List.length_singleton] at inside
    have old : (past ++ [event])[first]? = past[first]? := List.getElem?_append_left (by omega)
    obtain ⟨earlier', effect', same, same', kind⟩ := before
    obtain rfl := Option.some.inj (here.symm.trans same)
    obtain rfl := Option.some.inj (here'.symm.trans same')
    rw [old] at here
    by_cases last : second = past.length
    · subst last
      rw [List.getElem?_concat_length] at here'
      obtain rfl := Option.some.inj here'
      rcases kind with program | cause
      · have stamped := rising.behind earlier (List.mem_of_getElem? here)
        rw [program] at stamped
        omega
      · exact after first earlier cause here
    · have old' : (past ++ [event])[second]? = past[second]? := List.getElem?_append_left (by omega)
      rw [old'] at here'
      exact rising.edges first second earlier effect ⟨ordered, earlier, effect, here, here', kind⟩ here here'

variable {history : List (Stamped Agent ℕ)}

theorem rising_of_history {now : Agent → ℕ} (ran : History counting now history) : Rising now history := by
  induction ran with
  | start => exact rising_start
  | @internal now past earlier agent ih =>
    have limit := ih.bounded agent
    apply ih.append ⟨agent, none, now agent + 1⟩ (Nat.lt_succ_self _)
    · exact Nat.succ_le_succ limit
    · intro _ _ caused
      cases caused
  | @caused now past earlier agent source cause happened ih =>
    have limit := ih.bounded agent
    have limit' := ih.bounded cause.agent
    have behind := ih.behind cause (List.mem_of_getElem? happened)
    apply ih.append ⟨agent, some source, max (now agent) cause.stamp + 1⟩
    · change now agent < max (now agent) cause.stamp + 1
      omega
    · change max (now agent) cause.stamp + 1 ≤ past.length + 1
      omega
    · intro source' cause' same here
      obtain rfl := Option.some.inj same
      obtain rfl := Option.some.inj (happened.symm.trans here)
      change cause.stamp < max (now agent) cause.stamp + 1
      omega

omit [DecidableEq Agent] in
/-- Stamps that rise along edges rise along chains of them. -/
theorem Rising.precedes {now : Agent → ℕ} (rising : Rising now history) {first second : ℕ}
    (precedes : Precedes history first second) {event effect : Stamped Agent ℕ} (here : history[first]? = some event)
    (here' : history[second]? = some effect) : event.stamp < effect.stamp := by
  induction precedes generalizing effect with
  | single edge => exact rising.edges _ _ event effect edge here here'
  | @tail middle last chain edge ih =>
    have ⟨_, between, _, here'', _⟩ := edge
    exact Nat.lt_trans (ih here'') (rising.edges _ _ between effect edge here'' here')

/-! ## Clocks of machine integers -/

/-- Up to the limit the clock counts as the ideal one. -/
structure Counts (clock : Clock Time) (value : Time → ℕ) (limit : ℕ) : Prop where
  zero : value clock.zero = 0
  tick : ∀ time, value time < limit → value (clock.tick time) = value time + 1
  sync : ∀ time remote, value time < limit → value remote < limit →
    value (clock.sync time remote) = max (value time) (value remote) + 1

/-- The event, with its stamp as a number. -/
def Stamped.counted (value : Time → ℕ) (event : Stamped Agent Time) : Stamped Agent ℕ :=
  ⟨event.agent, event.source, value event.stamp⟩

variable {clock : Clock Time} {value : Time → ℕ} {limit : ℕ} {now : Agent → Time} {history : List (Stamped Agent Time)}

/-- A history no longer than the limit is one of the ideal clock. -/
theorem History.counting (ran : History clock now history) (counts : Counts clock value limit)
    (short : history.length ≤ limit) : History counting (value ∘ now) (history.map (·.counted value)) := by
  induction ran with
  | start =>
    have zero : value ∘ (fun _ : Agent => clock.zero) = fun _ => 0 := funext fun _ => counts.zero
    rw [zero]
    exact .start
  | @internal now past earlier agent ih =>
    rw [List.length_append, List.length_singleton] at short
    have ran := ih (by omega)
    have bound := (rising_of_history ran).bounded agent
    rw [List.length_map, Function.comp_apply] at bound
    rw [Function.comp_update, List.map_append, List.map_singleton, Stamped.counted, counts.tick (now agent) (by omega)]
    exact ran.internal agent
  | @caused now past earlier agent source cause happened ih =>
    rw [List.length_append, List.length_singleton] at short
    have ran := ih (by omega)
    have rising := rising_of_history ran
    have happened' : (past.map (·.counted value))[source]? = some (cause.counted value) := by
      rw [List.getElem?_map, happened]
      rfl
    have bound := rising.bounded agent
    have bound' := rising.bounded cause.agent
    have stamped : value cause.stamp ≤ (value ∘ now) cause.agent := rising.behind _ (List.mem_of_getElem? happened')
    rw [List.length_map, Function.comp_apply] at bound bound'
    rw [Function.comp_apply] at stamped
    rw [Function.comp_update, List.map_append, List.map_singleton, Stamped.counted,
      counts.sync (now agent) cause.stamp (by omega) (by omega)]
    exact ran.caused agent happened'

omit [DecidableEq Agent] in
theorem Edge.counted {first second : ℕ} (edge : Edge history first second) :
    Edge (history.map (·.counted value)) first second := by
  obtain ⟨ordered, event, effect, here, here', kind⟩ := edge
  refine ⟨ordered, event.counted value, effect.counted value, ?_, ?_, kind⟩
  · rw [List.getElem?_map, here]
    rfl
  · rw [List.getElem?_map, here']
    rfl

/-- In a history within the limit the clocks have counted at most its events. -/
theorem History.bounded (ran : History clock now history) (counts : Counts clock value limit)
    (short : history.length ≤ limit) (agent : Agent) : value (now agent) ≤ history.length := by
  have bound := (rising_of_history (ran.counting counts short)).bounded agent
  rwa [List.length_map] at bound

theorem History.stamp_bounded (ran : History clock now history) (counts : Counts clock value limit)
    (short : history.length ≤ limit) {event : Stamped Agent Time} (member : event ∈ history) :
    value event.stamp ≤ history.length := by
  have behind := (rising_of_history (ran.counting counts short)).behind _ (List.mem_map_of_mem member)
  exact Nat.le_trans behind (ran.bounded counts short event.agent)

/-- In a history within the limit the stamps rise along the causal order. -/
theorem History.precedes (ran : History clock now history) (counts : Counts clock value limit)
    (short : history.length ≤ limit) {first second : ℕ} (precedes : Precedes history first second)
    {event effect : Stamped Agent Time} (here : history[first]? = some event) (here' : history[second]? = some effect) :
    value event.stamp < value effect.stamp := by
  have rising := rising_of_history (ran.counting counts short)
  have counted : Precedes (history.map (·.counted value)) first second :=
    Relation.TransGen.mono (fun _ _ edge => Edge.counted edge) _ _ precedes
  have at' : (history.map (·.counted value))[first]? = some (event.counted value) := by
    rw [List.getElem?_map, here]
    rfl
  have at'' : (history.map (·.counted value))[second]? = some (effect.counted value) := by
    rw [List.getElem?_map, here']
    rfl
  exact rising.precedes counted at' at''

end Laplace.Machine.LogicalClock
