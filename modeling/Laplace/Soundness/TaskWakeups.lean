import Laplace.Model.TaskCompletion

/-! # No wake-up is lost

`complete` wakes outside the mutex, so that polls may come between the flag, the waker that was taken and the
wake. What carries the argument is whom the last poll left waiting: before the flag is set it is somebody whom the
stored waker wakes, then somebody whom the taken waker wakes, and once `complete` has returned nobody waits.
-/

namespace Laplace.Soundness.Wakeups

open Laplace.Machine Laplace.Model.Completion
open Laplace.Model.Runtime (PollResult)
open Laplace.Model.Tasks (TaskHandle)

variable {Waker Task : Type} {wakers : Wakers Waker Task}

/-! ## Who waits -/

/-- The last poll was pending with this waker, and its task has not been woken since. -/
def Waits (wakers : Wakers Waker Task) (trace : List (Event Waker Task)) (waker : Waker) : Prop :=
  ∃ before after, trace = before ++ .polled waker .pending :: after ∧ (∀ other answer, .polled other answer ∉ after) ∧
    .woken (wakers.wakes waker) ∉ after

/-- Somebody who waits after one more event was left waiting by it, or waited before. -/
theorem waits_snoc {trace : List (Event Waker Task)} {event : Event Waker Task} {waker : Waker}
    (waits : Waits wakers (trace ++ [event]) waker) :
    event = .polled waker .pending ∨
      (Waits wakers trace waker ∧ (∀ other answer, event ≠ .polled other answer) ∧
        event ≠ .woken (wakers.wakes waker)) := by
  obtain ⟨before, after, split, unpolled, unwoken⟩ := waits
  rcases List.eq_nil_or_concat after with rfl | ⟨inner, final, rfl⟩
  · left
    exact (List.cons.inj (List.append_inj' split rfl).2).1
  · right
    rw [List.concat_eq_append] at split unpolled unwoken
    rw [← List.cons_append, ← List.append_assoc] at split
    obtain ⟨rfl, same⟩ := List.append_inj' split rfl
    obtain rfl := (List.cons.inj same).1
    refine ⟨⟨before, inner, rfl, ?_, ?_⟩, ?_, ?_⟩
    · intro other answer member
      exact unpolled other answer (List.mem_append_left _ member)
    · intro member
      exact unwoken (List.mem_append_left _ member)
    · intro other answer same
      apply unpolled other answer
      rw [← same]
      exact List.mem_append_right _ (List.mem_singleton_self _)
    · intro same
      apply unwoken
      rw [← same]
      exact List.mem_append_right _ (List.mem_singleton_self _)

/-- The answers of the polls, in the order in which they had the mutex. -/
def answers (trace : List (Event Waker Task)) : List (PollResult Unit) :=
  trace.filterMap fun
    | .polled _ answer => some answer
    | _ => none

/-- A poll that had the mutex after the flag was set was ready. -/
def ReadyOnceFinished (before : List (Event Waker Task)) : Event Waker Task → Prop
  | .polled _ answer => .finished ∈ before → answer = .ready ()
  | _ => True

/-! ## The protocol of the two parties -/

inductive Phase (Waker : Type) where
  | before
  /-- The flag is set, and this waker was taken. -/
  | took (waker : Waker)
  | ended (returned : Bool)
  /-- The owner of the handle, and the answer of its last poll. -/
  | owner (last : Option (PollResult Unit))

def Phase.permits : Phase Waker → Effect Waker → Prop
  | .before, .completeLocked => True
  | .took waker, .wake woken => woken = waker
  | .owner _, .taskObserverHook | .owner _, .report _ | .owner _, .pollLocked _ => True
  | _, _ => False

def Phase.after : Phase Waker → (effect : Effect Waker) → effect.Reply → Option (Phase Waker)
  | .before, .completeLocked, none => some (.ended false)
  | .before, .completeLocked, some none => some (.ended true)
  | .before, .completeLocked, some (some waker) => some (.took waker)
  | .took _, .wake _, _ => some (.ended true)
  | .owner _, .pollLocked _, answer => some (.owner (some answer))
  | .owner last, .taskObserverHook, _ | .owner last, .report _, _ => some (.owner last)
  | _, _, _ => none

def protocol : Protocol (Effect Waker) Effect.Reply (Phase Waker) where
  permits := Phase.permits
  possible _ _ := True
  after := Phase.after

/-- What a party has between its calls. -/
def Rest : Phase Waker → Standing → Prop
  | .before, .uncompleted => True
  | .ended returned, .completed returned' => returned' = returned
  | .owner last, .handle _ last' => last' = last
  | _, _ => False

theorem complete_conforms :
    (complete : CompletionM Waker Bool).Conforms protocol (fun phase returned => phase = .ended returned) .before := by
  refine ⟨trivial, fun reply _ => ?_⟩
  match reply with
  | none => exact ⟨.ended false, rfl, rfl⟩
  | some none => exact ⟨.ended true, rfl, rfl⟩
  | some (some waker) => exact ⟨.took waker, rfl, rfl, fun _ _ => ⟨.ended true, rfl, rfl⟩⟩

theorem reportOnce_conforms (seen hook : Bool) (event : Laplace.Model.Tasks.TaskEvent)
    (last : Option (PollResult Unit)) :
    (reportOnce seen hook event : CompletionM Waker Unit).Conforms protocol (fun phase _ => phase = .owner last)
      (.owner last) := by
  unfold reportOnce
  split
  · exact ⟨trivial, fun _ _ => ⟨.owner last, rfl, rfl⟩⟩
  · exact rfl

theorem pollHandle_conforms (task : UInt64) (waker : Waker) (self : TaskHandle) (last : Option (PollResult Unit)) :
    (pollHandle task waker self).Conforms protocol (fun phase result => phase = .owner (some result.1)) (.owner last) := by
  refine ⟨trivial, fun hook _ => ⟨.owner last, rfl, ?_⟩⟩
  apply (reportOnce_conforms self.requested hook _ last).bind
  rintro phase _ rfl
  refine ⟨trivial, fun outcome _ => ⟨.owner (some outcome), rfl, ?_⟩⟩
  cases outcome with
  | pending | panicked => exact rfl
  | ready value =>
    apply (reportOnce_conforms self.resolved hook _ _).bind
    rintro phase _ rfl
    exact rfl

theorem completionSystem_starts (task : UInt64) : (completionSystem wakers task).Starts protocol Rest := by
  intro party standing operation program phase started resting
  change start task standing operation = some program at started
  unfold start at started
  split at started
  · obtain rfl := Option.some.inj started
    cases phase with
    | before =>
      apply complete_conforms.bind
      rintro phase returned rfl
      exact rfl
    | took | ended | owner => cases resting
  · obtain rfl := Option.some.inj started
    cases phase with
    | owner last =>
      apply (pollHandle_conforms _ _ _ last).bind
      rintro phase ⟨outcome, handle⟩ rfl
      exact rfl
    | before | took | ended => cases resting
  · cases started

/-! ## The invariant -/

/-- Whom the last poll left waiting, by what `complete` has done. -/
def Completing (wakers : Wakers Waker Task) (world : World Waker Task) : Phase Waker → Prop
  | .before => world.state.finished = false ∧ (world.poisoned = false → ∀ waiting, Waits wakers world.trace waiting →
      ∃ stored, world.state.waker = some stored ∧ wakers.wakes stored = wakers.wakes waiting)
  | .took waker => world.state.finished = true ∧
      ∀ waiting, Waits wakers world.trace waiting → wakers.wakes waker = wakers.wakes waiting
  | .ended true => world.state.finished = true ∧ ∀ waiting, ¬ Waits wakers world.trace waiting
  | .ended false => world.poisoned = true
  | .owner _ => False

structure Invariant (wakers : Wakers Waker Task) (world : World Waker Task) (phases : Party → Phase Waker) : Prop where
  completing : Completing wakers world (phases .completer)
  owner : phases .owner = .owner (answers world.trace).getLast?
  ready : Throughout ReadyOnceFinished world.trace
  finished : .finished ∈ world.trace → world.state.finished = true
  unpoisoned : world.state.finished = true → world.poisoned = false
  poisons : ∀ waker, .polled waker .panicked ∈ world.trace → world.poisoned = true

variable {world : World Waker Task} {phases : Party → Phase Waker}

theorem invariant_initial : Invariant wakers ({} : World Waker Task)
    fun | .completer => .before | .owner => .owner none where
  completing := by
    refine ⟨rfl, fun _ waiting waits => ?_⟩
    obtain ⟨before, after, split, -⟩ := waits
    cases before <;> cases split
  owner := rfl
  ready := throughout_nil _
  finished member := nomatch member
  unpoisoned _ := rfl
  poisons _ member := nomatch member

theorem answers_append (first second : List (Event Waker Task)) :
    answers (first ++ second) = answers first ++ answers second := List.filterMap_append

/-- A poll that is not pending leaves nobody waiting. -/
theorem not_waits_polled {trace : List (Event Waker Task)} {waker : Waker} {answer : PollResult Unit}
    (notPending : answer ≠ .pending) (waiting : Waker) : ¬ Waits wakers (trace ++ [.polled waker answer]) waiting := by
  intro waits
  rcases waits_snoc waits with same | ⟨-, unpolled, -⟩
  · obtain ⟨-, rfl⟩ := Event.polled.inj same
    exact notPending rfl
  · exact unpolled waker answer rfl

/-- A pending poll leaves its own waker waiting. -/
theorem eq_of_waits_polled {trace : List (Event Waker Task)} {waker waiting : Waker}
    (waits : Waits wakers (trace ++ [.polled waker .pending]) waiting) : waiting = waker := by
  rcases waits_snoc waits with same | ⟨-, unpolled, -⟩
  · exact (Event.polled.inj same).1.symm
  · exact absurd rfl (unpolled waker .pending)

/-- Where neither the flag nor the mutex speaks against it, `complete` is yet to come. -/
theorem Invariant.before_of_open (holds : Invariant wakers world phases) (unset : world.state.finished = false)
    (usable : world.poisoned = false) : phases .completer = .before := by
  have completing := holds.completing
  cases phase : phases .completer with
  | before => rfl
  | took waker =>
    rw [phase] at completing
    exact absurd (unset.symm.trans completing.1) (by decide)
  | ended returned =>
    rw [phase] at completing
    cases returned with
    | false => exact absurd (usable.symm.trans completing) (by decide)
    | true => exact absurd (unset.symm.trans completing.1) (by decide)
  | owner last =>
    rw [phase] at completing
    exact completing.elim

/-- What a poll adds to the trace, besides what it does to the mutex and to whoever waits. -/
theorem Invariant.polls (holds : Invariant wakers world phases) {waker : Waker} {answer : PollResult Unit}
    {next : World Waker Task} (traced : next.trace = world.trace ++ [.polled waker answer])
    (completing : Completing wakers next (phases .completer))
    (set : next.state.finished = world.state.finished)
    (isReady : world.state.finished = true → answer = .ready () ∧ next.poisoned = world.poisoned)
    (panics : answer = .panicked → next.poisoned = true) (stays : world.poisoned = true → next.poisoned = true) :
    Invariant wakers next (Function.update phases .owner (.owner (some answer))) where
  completing := by
    rw [Function.update_of_ne (by decide)]
    exact completing
  owner := by
    rw [Function.update_self, traced, answers_append]
    simp [answers]
  ready := by
    rw [traced]
    apply holds.ready.append
    intro member
    exact (isReady (holds.finished member)).1
  finished member := by
    rw [traced, List.mem_append, List.mem_singleton] at member
    rcases member with member | same
    · rw [set]
      exact holds.finished member
    · cases same
  unpoisoned isSet := by
    rw [set] at isSet
    rw [(isReady isSet).2]
    exact holds.unpoisoned isSet
  poisons other member := by
    rw [traced, List.mem_append, List.mem_singleton] at member
    rcases member with member | same
    · exact stays (holds.poisons other member)
    · exact panics (Event.polled.inj same).2.symm

/-- A poll of an unset state stores a waker of its own task, or keeps one, unless a clone panics. -/
theorem poll_unset (wakers : Wakers Waker Task) {state : CompletionState Waker} (unset : state.finished = false)
    (waker : Waker) (clonePanics : Bool) :
    state.poll wakers waker clonePanics = (.panicked, state) ∨
      ∃ stored, state.poll wakers waker clonePanics = (.pending, { state with waker := some stored }) ∧
        wakers.wakes stored = wakers.wakes waker := by
  by_cases replaced : state.replaceWaker wakers waker = true
  · cases clonePanics with
    | true =>
      left
      simp only [CompletionState.poll, unset, Bool.false_eq_true, ↓reduceIte, replaced]
    | false =>
      right
      refine ⟨waker, ?_, rfl⟩
      simp only [CompletionState.poll, unset, Bool.false_eq_true, ↓reduceIte, replaced]
  · have kept := replaced
    unfold CompletionState.replaceWaker at kept
    split at kept
    · rename_i stored isStored
      right
      have same : { state with waker := some stored } = state := by rw [← isStored]
      refine ⟨stored, ?_, wakers.honest stored waker (by simpa using kept)⟩
      rw [same]
      simp only [CompletionState.poll, unset, Bool.false_eq_true, ↓reduceIte, replaced]
    · exact absurd rfl kept

/-- On a poisoned mutex every poll panics. -/
theorem Invariant.completing_poisoned (holds : Invariant wakers world phases) (poisoned : world.poisoned = true)
    (trace : List (Event Waker Task)) : Completing wakers { world with trace } (phases .completer) := by
  have completing := holds.completing
  have unset : world.state.finished ≠ true := by
    intro isSet
    have usable := holds.unpoisoned isSet
    rw [poisoned] at usable
    cases usable
  cases phase : phases .completer with
  | before =>
    rw [phase] at completing
    exact ⟨completing.1, fun usable => absurd (poisoned.symm.trans usable) (by decide)⟩
  | took waker =>
    rw [phase] at completing
    exact absurd completing.1 unset
  | ended returned =>
    rw [phase] at completing
    cases returned with
    | false => exact poisoned
    | true => exact absurd completing.1 unset
  | owner last =>
    rw [phase] at completing
    exact completing

/-- After a poll that was ready nobody waits. -/
theorem Invariant.completing_ready (holds : Invariant wakers world phases) (isSet : world.state.finished = true)
    {next : World Waker Task} (set : next.state.finished = true)
    (nobody : ∀ waiting, ¬ Waits wakers next.trace waiting) : Completing wakers next (phases .completer) := by
  have completing := holds.completing
  cases phase : phases .completer with
  | before =>
    rw [phase] at completing
    exact absurd (completing.1.symm.trans isSet) (by decide)
  | took taken => exact ⟨set, fun waiting waits => absurd waits (nobody waiting)⟩
  | ended returned =>
    rw [phase] at completing
    cases returned with
    | false => exact absurd (completing.symm.trans (holds.unpoisoned isSet)) (by decide)
    | true => exact ⟨set, nobody⟩
  | owner last =>
    rw [phase] at completing
    exact completing

/-- A poll that has the mutex. -/
theorem Invariant.polled (holds : Invariant wakers world phases) {waker : Waker} {choice : Choice}
    {answer : PollResult Unit} {next : World Waker Task}
    (answered : world.answer wakers (.pollLocked waker) choice = some (answer, next)) :
    Invariant wakers next (Function.update phases .owner (.owner (some answer))) := by
  simp only [World.answer] at answered
  by_cases poisoned : world.poisoned = true
  · rw [if_pos poisoned] at answered
    obtain ⟨rfl, rfl⟩ := Prod.mk.inj (Option.some.inj answered)
    apply holds.polls
    · rfl
    · exact holds.completing_poisoned poisoned _
    · rfl
    · intro isSet
      exact absurd (poisoned.symm.trans (holds.unpoisoned isSet)) (by decide)
    · exact fun _ => poisoned
    · exact fun _ => poisoned
  have usable : world.poisoned = false := by simpa using poisoned
  rw [if_neg poisoned] at answered
  obtain ⟨rfl, rfl⟩ := Prod.mk.inj (Option.some.inj answered)
  by_cases isSet : world.state.finished = true
  · have polled : world.state.poll wakers waker choice.clonePanics = (.ready (), world.state) := by
      simp only [CompletionState.poll, isSet, ↓reduceIte]
    have nobody : ∀ waiting, ¬ Waits wakers (world.trace ++ [.polled waker (.ready ())]) waiting :=
      not_waits_polled fun same => nomatch same
    simp only [polled]
    apply holds.polls
    · rfl
    · exact holds.completing_ready isSet isSet nobody
    · rfl
    · exact fun _ => ⟨rfl, usable.symm⟩
    · exact fun same => nomatch same
    · exact fun same => absurd same poisoned
  have unset : world.state.finished = false := by simpa using isSet
  have phase := holds.before_of_open unset usable
  rcases poll_unset wakers unset waker choice.clonePanics with polled | ⟨stored, polled, sameTask⟩
  · simp only [polled]
    apply holds.polls
    · rfl
    · rw [phase]
      exact ⟨unset, fun usable => nomatch usable⟩
    · rfl
    · exact fun same => absurd same isSet
    · exact fun _ => rfl
    · exact fun _ => rfl
  · simp only [polled]
    apply holds.polls
    · rfl
    · rw [phase]
      refine ⟨unset, fun _ waiting waits => ⟨stored, rfl, ?_⟩⟩
      rw [eq_of_waits_polled waits]
      exact sameTask
    · rfl
    · exact fun same => absurd same isSet
    · exact fun same => nomatch same
    · exact fun same => absurd same poisoned

/-- `complete` sets the flag and takes the waker, or finds the mutex poisoned. -/
theorem Invariant.completes (holds : Invariant wakers world phases) (phase : phases .completer = .before)
    {choice : Choice} {reply : Option (Option Waker)} {next : World Waker Task} {later : Phase Waker}
    (answered : world.answer wakers .completeLocked choice = some (reply, next))
    (moved : Phase.after .before .completeLocked reply = some later) :
    Invariant wakers next (Function.update phases .completer later) := by
  have completing := holds.completing
  rw [phase] at completing
  simp only [World.answer] at answered
  have kept : ∀ later', Function.update phases .completer later' .owner = phases .owner :=
    fun later' => Function.update_of_ne (by decide) _ _
  by_cases poisoned : world.poisoned = true
  · rw [if_pos poisoned] at answered
    obtain ⟨rfl, rfl⟩ := Prod.mk.inj (Option.some.inj answered)
    obtain rfl := Option.some.inj moved
    refine { holds with completing := ?_, owner := ?_ }
    · rw [Function.update_self]
      exact poisoned
    · rw [kept]
      exact holds.owner
  · have usable : world.poisoned = false := by simpa using poisoned
    have stored := completing.2 usable
    rw [if_neg poisoned] at answered
    obtain ⟨rfl, rfl⟩ := Prod.mk.inj (Option.some.inj answered)
    constructor
    · rw [Function.update_self]
      have earlier : ∀ waiting, Waits wakers (world.trace ++ [.finished]) waiting → Waits wakers world.trace waiting := by
        intro waiting waits
        rcases waits_snoc waits with same | ⟨before, -⟩
        · cases same
        · exact before
      cases held : world.state.waker with
      | none =>
        simp only [CompletionState.complete, held] at moved
        obtain rfl := Option.some.inj moved
        refine ⟨rfl, fun waiting waits => ?_⟩
        obtain ⟨waker, isStored, -⟩ := stored waiting (earlier waiting waits)
        rw [held] at isStored
        cases isStored
      | some taken =>
        simp only [CompletionState.complete, held] at moved
        obtain rfl := Option.some.inj moved
        refine ⟨rfl, fun waiting waits => ?_⟩
        obtain ⟨waker, isStored, sameTask⟩ := stored waiting (earlier waiting waits)
        obtain rfl := Option.some.inj (held.symm.trans isStored)
        exact sameTask
    · rw [kept, holds.owner, answers_append]
      simp [answers]
    · exact holds.ready.append trivial
    · intro _
      rfl
    · intro _
      exact usable
    · intro waker member
      rw [List.mem_append, List.mem_singleton] at member
      rcases member with member | same
      · exact holds.poisons waker member
      · cases same

/-- An event of no poll, after which nobody waits who did not wait before. -/
theorem Invariant.noted (holds : Invariant wakers world phases) {event : Event Waker Task} {phase : Phase Waker}
    (unpolled : ∀ waker answer, event ≠ .polled waker answer) (unfinished : event ≠ .finished)
    (completing : Completing wakers { world with trace := world.trace ++ [event] } phase) :
    Invariant wakers { world with trace := world.trace ++ [event] } (Function.update phases .completer phase) where
  completing := by
    rw [Function.update_self]
    exact completing
  owner := by
    rw [Function.update_of_ne (by decide), holds.owner, answers_append]
    cases event with
    | polled waker answer => exact absurd rfl (unpolled waker answer)
    | finished | woken | observed => simp [answers]
  ready := by
    apply holds.ready.append
    cases event with
    | polled waker answer => exact absurd rfl (unpolled waker answer)
    | finished | woken | observed => trivial
  finished member := by
    rw [List.mem_append, List.mem_singleton] at member
    rcases member with member | same
    · exact holds.finished member
    · exact absurd same.symm unfinished
  unpoisoned := holds.unpoisoned
  poisons waker member := by
    rw [List.mem_append, List.mem_singleton] at member
    rcases member with member | same
    · exact holds.poisons waker member
    · exact absurd same.symm (unpolled waker _)

/-- The taken waker is woken. -/
theorem Invariant.wakes (holds : Invariant wakers world phases) {waker : Waker} (phase : phases .completer = .took waker) :
    Invariant wakers { world with trace := world.trace ++ [.woken (wakers.wakes waker)] }
      (Function.update phases .completer (.ended true)) := by
  have completing := holds.completing
  rw [phase] at completing
  apply holds.noted
  · intro other answer same
    cases same
  · intro same
    cases same
  · refine ⟨completing.1, fun waiting waits => ?_⟩
    rcases waits_snoc waits with same | ⟨before, -, unwoken⟩
    · cases same
    · apply unwoken
      rw [completing.2 waiting before]

/-- Whoever waits is left waiting by a report. -/
theorem completing_observed {event : Laplace.Model.Tasks.TaskEvent} {phase : Phase Waker}
    (completing : Completing wakers world phase) :
    Completing wakers { world with trace := world.trace ++ [.observed event] } phase := by
  have earlier : ∀ waiting, Waits wakers (world.trace ++ [.observed event]) waiting → Waits wakers world.trace waiting := by
    intro waiting waits
    rcases waits_snoc waits with same | ⟨before, -⟩
    · cases same
    · exact before
  cases phase with
  | before => exact ⟨completing.1, fun usable waiting waits => completing.2 usable waiting (earlier waiting waits)⟩
  | took waker => exact ⟨completing.1, fun waiting waits => completing.2 waiting (earlier waiting waits)⟩
  | ended returned =>
    cases returned with
    | false => exact completing
    | true => exact ⟨completing.1, fun waiting waits => completing.2 waiting (earlier waiting waits)⟩
  | owner last => exact completing

theorem Invariant.observed (holds : Invariant wakers world phases) (event : Laplace.Model.Tasks.TaskEvent) :
    Invariant wakers { world with trace := world.trace ++ [.observed event] } phases := by
  have noted : Invariant wakers { world with trace := world.trace ++ [.observed event] }
      (Function.update phases .completer (phases .completer)) := by
    apply holds.noted
    · exact fun _ _ same => nomatch same
    · exact fun same => nomatch same
    · exact completing_observed holds.completing
  rwa [Function.update_eq_self] at noted

theorem completionSystem_keeps (wakers : Wakers Waker Task) (task : UInt64) :
    (completionSystem wakers task).Keeps protocol (Invariant wakers) := by
  intro world phases party effect choice reply next holds answered
  refine ⟨trivial, fun later permitted moved => ?_⟩
  change world.answer wakers effect choice = some (reply, next) at answered
  change (phases party).after effect reply = some later at moved
  cases party with
  | completer =>
    cases phase : phases .completer with
    | before =>
      rw [phase] at permitted moved
      cases effect with
      | completeLocked => exact holds.completes phase answered moved
      | taskObserverHook | report | wake | pollLocked => exact permitted.elim
    | took waker =>
      rw [phase] at permitted moved
      cases effect with
      | wake woken =>
        obtain rfl : woken = waker := permitted
        obtain ⟨-, rfl⟩ := Prod.mk.inj (Option.some.inj answered)
        obtain rfl := Option.some.inj moved
        exact holds.wakes phase
      | taskObserverHook | report | completeLocked | pollLocked => exact permitted.elim
    | ended returned =>
      rw [phase] at permitted
      cases effect <;> exact permitted.elim
    | owner last =>
      have completing := holds.completing
      rw [phase] at completing
      exact completing.elim
  | owner =>
    have phase := holds.owner
    rw [phase] at permitted moved
    cases effect with
    | taskObserverHook =>
      obtain ⟨-, rfl⟩ := Prod.mk.inj (Option.some.inj answered)
      obtain rfl := Option.some.inj moved
      rw [← phase, Function.update_eq_self]
      exact holds
    | report event =>
      obtain ⟨-, rfl⟩ := Prod.mk.inj (Option.some.inj answered)
      obtain rfl := Option.some.inj moved
      rw [← phase, Function.update_eq_self]
      exact holds.observed event
    | pollLocked waker =>
      obtain rfl := Option.some.inj moved
      exact holds.polled answered
    | completeLocked | wake => exact permitted.elim

/-- **No wake-up is lost.** Let one `complete` interleave with any polls of the handle, with any wakers. Once
`complete` has returned, the last poll was ready, or it was pending and the task of its waker has been woken since;
a poll that has the mutex after the flag was set is ready; and a poll that has returned gave the answer that it
found under the mutex. -/
theorem no_wakeup_lost (wakers : Wakers Waker Task) (task : UInt64)
    {actions : List (System.Action Party (Operation Waker) Choice)}
    {config : System.Config (Effect Waker) Effect.Reply Party Standing (World Waker Task)}
    (reached : run? (completionSystem wakers task).step initial actions = some config) :
    (config.program .completer = .done (.completed true) → ∀ before (waker : Waker) answer after,
      config.shared.trace = before ++ .polled waker answer :: after → (∀ other result, .polled other result ∉ after) →
        answer = .ready () ∨ (answer = .pending ∧ .woken (wakers.wakes waker) ∈ after)) ∧
    (∀ before (waker : Waker) answer after, config.shared.trace = before ++ .polled waker answer :: after →
      .finished ∈ before → answer = .ready ()) ∧
    ∀ handle last, config.program .owner = .done (.handle handle last) →
      last = (answers config.shared.trace).getLast? := by
  have start : System.Phased protocol Rest (Invariant wakers) initial
      (fun | .completer => (.before : Phase Waker) | .owner => .owner none) := by
    refine ⟨invariant_initial, fun party => ?_⟩
    cases party with
    | completer => exact trivial
    | owner => exact rfl
  obtain ⟨phases, holds, conform⟩ :=
    System.phases_of_run (completionSystem_starts task) (completionSystem_keeps wakers task) start reached
  refine ⟨?_, ?_, ?_⟩
  · intro returned before waker answer after split last
    have conforms := conform .completer
    rw [returned] at conforms
    have completing := holds.completing
    cases phase : phases .completer with
    | ended returned' =>
      rw [phase] at conforms completing
      obtain rfl : true = returned' := conforms
      cases answer with
      | ready value => exact .inl rfl
      | panicked =>
        have poisoned := holds.poisons waker (by rw [split]; exact List.mem_append_right _ List.mem_cons_self)
        rw [holds.unpoisoned completing.1] at poisoned
        cases poisoned
      | pending =>
        refine .inr ⟨rfl, ?_⟩
        by_contra unwoken
        exact completing.2 waker ⟨before, after, split, last, unwoken⟩
    | before | took | owner =>
      rw [phase] at conforms
      exact conforms.elim
  · intro before waker answer after split isFinished
    exact holds.ready before _ after split isFinished
  · intro handle last idle
    have conforms := conform .owner
    rw [idle, holds.owner] at conforms
    exact conforms

/-- Each task has one waker. -/
def numbered : Wakers ℕ ℕ where
  wakes := id
  willWake := fun stored other => stored == other
  honest _ _ same := eq_of_beq same

/-- The handle is polled from task 1, then from task 2; then the task completes. -/
def movedHandle : List (System.Action Party (Operation ℕ) Choice) :=
  [.start .owner (.poll 1), .advance .owner {}, .advance .owner {}, .start .owner (.poll 2), .advance .owner {},
    .advance .owner {}, .start .completer .complete, .advance .completer {}, .advance .completer {}]

theorem no_wakeup_lost_moved : ∃ config before after, run? (completionSystem numbered 0).step initial movedHandle = some config ∧
    config.shared.trace = before ++ .polled 2 .pending :: after ∧ .woken 2 ∈ after := by
  have moved : ∃ config, run? (completionSystem numbered 0).step initial movedHandle = some config ∧
      config.program .completer = .done (.completed true) ∧
      config.shared.trace = [.polled 1 .pending] ++ .polled 2 .pending :: [.finished, .woken 2] := ⟨_, rfl, rfl, rfl⟩
  obtain ⟨config, reached, completed, traced⟩ := moved
  refine ⟨config, [.polled 1 .pending], [.finished, .woken 2], reached, traced, ?_⟩
  have woken := (no_wakeup_lost numbered 0 reached).1 completed [.polled 1 .pending] 2 .pending [.finished, .woken 2]
    traced (by simp)
  rcases woken with same | ⟨-, member⟩
  · cases same
  · exact member

end Laplace.Soundness.Wakeups
