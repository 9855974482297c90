import Mathlib.Algebra.Order.BigOperators.Group.Finset
import Mathlib.Algebra.Order.Group.Nat
import Laplace.Model.TrackedSemaphore

/-! # The events of tracked semaphores

A permit is emitted as acquired after the inner semaphore gave it, and as released before it is given back. So the
events never show more permits out than there are, no thread id is shown to release more than it acquired, although
the permit may be dropped on another thread, and where every call has returned the events show exactly the permits that
are out.
-/

namespace Laplace.Soundness.TrackedSemaphore

open Laplace.Machine Laplace.Model Laplace.Model.TrackedSemaphore

/-- Where one use of a semaphore stands. -/
inductive Stage where
  | idle
  /-- It has read its thread id. -/
  | waiting (threadId : UInt64)
  /-- It has a permit, and has not emitted it. -/
  | granted (threadId : UInt64) (resource : String)
  | held (threadId : UInt64) (resource : String)
  /-- It has emitted the release, and has not given the permit back. -/
  | returning (resource : String)
deriving DecidableEq

namespace Stage

/-- The protocol of one use. -/
def after : Stage → (effect : Effect) → effect.Reply → Option Stage
  | .idle, .currentThreadId, threadId => some (.waiting threadId)
  | .waiting threadId, .acquireOwned resource, isGranted =>
      some (if isGranted then .granted threadId resource else .idle)
  | .granted threadId resource, .emit event, _ =>
      if event = .semaphoreAcquired threadId resource then some (.held threadId resource) else none
  | .held threadId resource, .emit event, _ =>
      if event = .semaphoreReleased threadId resource then some (.returning resource) else none
  | .returning resource, .release other, _ => if other = resource then some .idle else none
  | _, _, _ => none

/-- The permits of a semaphore that it has, in fact. -/
def out (resource : String) : Stage → ℕ
  | .granted _ other | .held _ other | .returning other => if other = resource then 1 else 0
  | .idle | .waiting _ => 0

/-- The permits that its events show, of those that are asked for. -/
def shown (asked : UInt64 → String → Bool) : Stage → ℕ
  | .held threadId resource => (asked threadId resource).toNat
  | _ => 0

/-- The stage that suits a use between two operations. -/
def Rest (stage : Stage) : Option TrackedSemaphorePermit → Prop
  | none => stage = .idle
  | some permit => stage = .held permit.threadId permit.resourceName

end Stage

def protocol : Protocol Effect Effect.Reply Stage where
  possible _ _ := True
  after := Stage.after

theorem acquire_conforms (resourceName : String) : (acquire resourceName).Conforms protocol Stage.Rest .idle := by
  refine ⟨trivial, fun threadId _ => ⟨.waiting threadId, rfl, trivial, fun isGranted _ => ?_⟩⟩
  cases isGranted with
  | false => exact ⟨.idle, rfl, rfl⟩
  | true =>
    refine ⟨.granted threadId resourceName, rfl, trivial, fun _ _ => ⟨.held threadId resourceName, ?_, rfl⟩⟩
    exact if_pos rfl

theorem drop_conforms (permit : TrackedSemaphorePermit) :
    permit.drop.Conforms protocol (fun stage _ => stage = .idle) (.held permit.threadId permit.resourceName) := by
  refine ⟨trivial, fun _ _ => ⟨.returning permit.resourceName, if_pos rfl, trivial, fun _ _ => ⟨.idle, ?_, rfl⟩⟩⟩
  exact if_pos rfl

/-- Every operation keeps to the protocol. -/
theorem start_conforms {value : Option TrackedSemaphorePermit} {operation : Operation} {stage : Stage}
    {program : SemaphoreM (Option TrackedSemaphorePermit)} (started : start value operation = some program)
    (rests : stage.Rest value) : program.Conforms protocol Stage.Rest stage := by
  cases value with
  | none =>
    obtain rfl : stage = .idle := rests
    cases operation with
    | acquire resourceName =>
      obtain rfl := Option.some.inj started
      exact acquire_conforms resourceName
    | drop => cases started
  | some permit =>
    obtain rfl : stage = .held permit.threadId permit.resourceName := rests
    cases operation with
    | acquire resourceName => cases started
    | drop =>
      obtain rfl := Option.some.inj started
      exact (drop_conforms permit).bind fun _ _ idle => idle

/-- The event acquires a permit that is asked for. -/
def acquires (asked : UInt64 → String → Bool) : ProbeEvent → Bool
  | .semaphoreAcquired threadId resource => asked threadId resource
  | _ => false

/-- The event releases a permit that is asked for. -/
def releases (asked : UInt64 → String → Bool) : ProbeEvent → Bool
  | .semaphoreReleased threadId resource => asked threadId resource
  | _ => false

/-- The acquisitions that a trace shows, of those that are asked for. -/
def acquired (asked : UInt64 → String → Bool) (trace : List ProbeEvent) : ℕ := trace.countP (acquires asked)

def released (asked : UInt64 → String → Bool) (trace : List ProbeEvent) : ℕ := trace.countP (releases asked)

/-- All permits of one semaphore. -/
def onSemaphore (resource : String) (_ : UInt64) (other : String) : Bool := other == resource

theorem countP_snoc (test : ProbeEvent → Bool) (trace : List ProbeEvent) (event : ProbeEvent) :
    (trace ++ [event]).countP test = trace.countP test + (test event).toNat := by
  rw [List.countP_append, List.countP_singleton]
  cases test event <;> rfl

/-- An emission shows what the use goes on to show, and moves no permit. -/
theorem counts_emitted {stage later : Stage} {event : ProbeEvent} (moved : stage.after (.emit event) () = some later)
    (asked : UInt64 → String → Bool) :
    (acquires asked event).toNat + stage.shown asked = (releases asked event).toNat + later.shown asked ∧
      ∀ resource, later.out resource = stage.out resource := by
  cases stage
  case granted threadId resource =>
    obtain ⟨rfl, same⟩ := Option.ite_none_right_eq_some.mp moved
    obtain rfl := Option.some.inj same
    exact ⟨Nat.add_comm .., fun _ => rfl⟩
  case held threadId resource =>
    obtain ⟨rfl, same⟩ := Option.ite_none_right_eq_some.mp moved
    obtain rfl := Option.some.inj same
    exact ⟨Nat.add_comm .., fun _ => rfl⟩
  all_goals cases moved

section Invariant

variable {Use : Type} [Fintype Use] {capacity : String → ℕ}

/-- The permits that are out and those that the events show are those that the uses have. -/
structure Accounts (capacity : String → ℕ) (world : World) (stages : Use → Stage) : Prop where
  out : ∀ resource, world.available resource + ∑ use, (stages use).out resource = capacity resource
  shown : ∀ asked, acquired asked world.trace = released asked world.trace + ∑ use, (stages use).shown asked

variable [DecidableEq Use] {world next : World} {stages : Use → Stage} {use : Use} {later : Stage}

/-- One use moves: what changes in its stage is what changes in the semaphores and in the trace. -/
theorem Accounts.move (accounts : Accounts capacity world stages)
    (out : ∀ resource, next.available resource + later.out resource =
      world.available resource + (stages use).out resource)
    (shown : ∀ asked, acquired asked next.trace + released asked world.trace + (stages use).shown asked =
      acquired asked world.trace + released asked next.trace + later.shown asked) :
    Accounts capacity next (Function.update stages use later) := by
  refine ⟨fun resource => ?_, fun asked => ?_⟩
  · have outs := total_update (Stage.out resource) stages use later
    have before := accounts.out resource
    have moved := out resource
    omega
  · have shows := total_update (Stage.shown asked) stages use later
    have before := accounts.shown asked
    have moved := shown asked
    omega

/-- Every effect that the protocol permits keeps the accounts. -/
theorem Accounts.answer (accounts : Accounts capacity world stages) {effect : Effect} {choice : Choice}
    {reply : effect.Reply} (answered : world.answer effect choice = some (reply, next))
    (moved : (stages use).after effect reply = some later) :
    Accounts capacity next (Function.update stages use later) := by
  cases effect with
  | currentThreadId =>
    cases answered
    cases stage : stages use <;> rw [stage] at moved <;> cases moved
    exact accounts.move (fun _ => by rw [stage]; rfl) fun _ => by rw [stage]; rfl
  | acquireOwned resource =>
    cases stage : stages use <;> rw [stage] at moved <;> cases moved
    rw [World.answer] at answered
    split at answered
    · cases answered
      exact accounts.move (fun _ => by rw [stage]; rfl) fun _ => by rw [stage]; rfl
    · obtain ⟨free, same⟩ := Option.ite_none_right_eq_some.mp answered
      cases same
      refine accounts.move (fun other => ?_) fun _ => by rw [stage]; rfl
      rw [stage]
      rcases eq_or_ne other resource with rfl | different
      · simp only [Function.update_self, Stage.out, if_true]
        omega
      · simp only [Function.update_of_ne different, Stage.out, if_true, different.symm, if_false]
  | release resource =>
    cases answered
    cases stage : stages use <;> rw [stage] at moved
    case returning own =>
      obtain ⟨rfl, same⟩ := Option.ite_none_right_eq_some.mp moved
      obtain rfl := Option.some.inj same
      refine accounts.move (fun other => ?_) fun _ => by rw [stage]; rfl
      rw [stage]
      rcases eq_or_ne other resource with rfl | different
      · simp only [Function.update_self, Stage.out, if_true]
      · simp only [Function.update_of_ne different, Stage.out, different.symm, if_false]
    all_goals cases moved
  | emit event =>
    cases answered
    have counted := counts_emitted moved
    refine accounts.move (fun resource => by rw [(counted fun _ _ => true).2 resource]) fun asked => ?_
    have shown := (counted asked).1
    simp only [acquired, released, countP_snoc]
    omega

end Invariant

section Runs

variable {Use : Type} [Fintype Use] [DecidableEq Use] {world : World}
  {final : System.Config Effect Effect.Reply Use (Option TrackedSemaphorePermit) World}

/-- The accounts hold in every reachable state. -/
theorem accounts_of_run {actions : List (System.Action Use Operation Choice)} (silent : world.trace = [])
    (reached : run? (trackedSemaphores Use).step ⟨world, fun _ => .done none⟩ actions = some final) :
    ∃ stages, System.Phased protocol Stage.Rest (Accounts world.available) final stages := by
  have initially : System.Phased protocol Stage.Rest (Accounts world.available)
      (⟨world, fun _ => .done none⟩ : System.Config Effect Effect.Reply Use _ _) (fun _ => .idle) := by
    refine ⟨⟨fun resource => ?_, fun asked => ?_⟩, fun _ => rfl⟩
    · simp only [Stage.out, Finset.sum_const_zero, Nat.add_zero]
    · simp only [silent, acquired, released, Stage.shown, Finset.sum_const_zero, List.countP_nil, Nat.add_zero]
  exact System.phases_of_run (fun _ _ _ _ _ started rests => start_conforms started rests)
    (fun _ _ _ _ _ _ _ accounts answered => ⟨trivial, fun _ _ moved => accounts.answer answered moved⟩)
    initially reached

/-- A permit that is shown is out. -/
theorem shown_le_out (stage : Stage) (resource : String) : stage.shown (onSemaphore resource) ≤ stage.out resource := by
  cases stage with
  | held threadId other =>
    simp only [Stage.shown, Stage.out, onSemaphore]
    split
    · exact Bool.toNat_le _
    · next different => rw [beq_false_of_ne different, Bool.toNat_false]
  | idle | waiting | granted | returning => exact Nat.zero_le _

/-- Between two operations what is out is shown. -/
theorem shown_eq_out {stage : Stage} {permit : Option TrackedSemaphorePermit} (rests : stage.Rest permit)
    (resource : String) : stage.shown (onSemaphore resource) = stage.out resource := by
  cases permit with
  | none =>
    obtain rfl : stage = .idle := rests
    rfl
  | some permit =>
    obtain rfl : stage = .held permit.threadId permit.resourceName := rests
    simp only [Stage.shown, Stage.out, onSemaphore]
    split
    · next same => rw [same, beq_self_eq_true, Bool.toNat_true]
    · next different => rw [beq_false_of_ne different, Bool.toNat_false]

/-- **The events account for the permits.** At every point of a capture, the events show no more permits out than the
semaphore has, no more released than acquired by whatever threads are asked for, and where every call has returned
exactly as many out as are not available. -/
theorem permits_accounted {actions : List (System.Action Use Operation Choice)} (silent : world.trace = [])
    (reached : run? (trackedSemaphores Use).step ⟨world, fun _ => .done none⟩ actions = some final) :
    (∀ resource, acquired (onSemaphore resource) final.shared.trace ≤
      released (onSemaphore resource) final.shared.trace + world.available resource) ∧
    (∀ asked, released asked final.shared.trace ≤ acquired asked final.shared.trace) ∧
    ((∀ use, ∃ permit, final.program use = .done permit) → ∀ resource,
      acquired (onSemaphore resource) final.shared.trace + final.shared.available resource =
        released (onSemaphore resource) final.shared.trace + world.available resource) := by
  obtain ⟨stages, accounts, conform⟩ := accounts_of_run silent reached
  refine ⟨fun resource => ?_, fun asked => ?_, fun returned resource => ?_⟩
  · have outs := accounts.out resource
    have shown := accounts.shown (onSemaphore resource)
    have least := Finset.sum_le_sum fun use (_ : use ∈ Finset.univ) => shown_le_out (stages use) resource
    omega
  · have shown := accounts.shown asked
    omega
  · have outs := accounts.out resource
    have shown := accounts.shown (onSemaphore resource)
    have same : ∑ use, (stages use).shown (onSemaphore resource) = ∑ use, (stages use).out resource := by
      refine Finset.sum_congr rfl fun use _ => ?_
      obtain ⟨permit, ended⟩ := returned use
      have conforms := conform use
      rw [ended] at conforms
      exact shown_eq_out conforms resource
    omega

/-- A permit that is acquired on one thread and dropped on another, while the other use waits in vain. -/
theorem permits_accounted_moved : ∃ final : System.Config Effect Effect.Reply Bool _ World,
    run? (trackedSemaphores Bool).step ⟨{ available := fun _ => 1 }, fun _ => .done none⟩
      [.start false (.acquire "pool"), .advance false ⟨1, false⟩, .advance false ⟨1, false⟩, .advance false ⟨2, false⟩,
        .start true (.acquire "pool"), .advance true ⟨2, false⟩, .advance true ⟨2, true⟩,
        .start false .drop, .advance false ⟨2, false⟩, .advance false ⟨2, false⟩] = some final ∧
      final.shared.trace = [.semaphoreAcquired 1 "pool", .semaphoreReleased 1 "pool"] ∧
      acquired (onSemaphore "pool") final.shared.trace + final.shared.available "pool" =
        released (onSemaphore "pool") final.shared.trace + 1 := by
  have reached : run? (trackedSemaphores Bool).step ⟨{ available := fun _ => 1 }, fun _ => .done none⟩
      [.start false (.acquire "pool"), .advance false ⟨1, false⟩, .advance false ⟨1, false⟩, .advance false ⟨2, false⟩,
        .start true (.acquire "pool"), .advance true ⟨2, false⟩, .advance true ⟨2, true⟩,
        .start false .drop, .advance false ⟨2, false⟩, .advance false ⟨2, false⟩] = some _ := rfl
  refine ⟨_, reached, rfl, ?_⟩
  refine (permits_accounted rfl reached).2.2 (fun use => ?_) "pool"
  cases use <;> exact ⟨none, rfl⟩

end Runs

end Laplace.Soundness.TrackedSemaphore
