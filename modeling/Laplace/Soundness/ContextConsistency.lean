import Laplace.Model.SovereignContext

/-! # Contexts along a builder chain

A context stays valid whatever the chain calls on it. Turbo mode and the slot part ways in one place: a tier without
acceleration ends turbo mode and leaves the slot that was allocated, so the context is on the standard path and still
reports a slot of the pool.
-/

namespace Laplace.Soundness.Context

open Machine Model.Context
open Model.Tenant (TenantTier)

/-- The context is valid, and outside turbo mode it has no slot. -/
structure Consistent (context : SovereignContext) : Prop where
  valid : context.isValid = true
  slotless : context.isTurboMode = false → context.getTurboSlot = none

/-- A child has no slot, and its parent's tenant, trace, tier and priority. -/
structure Inherits (parent child : SovereignContext) : Prop where
  slotless : child.getTurboSlot = none
  tenantId : child.tenantId = parent.tenantId
  traceId : child.traceId = parent.traceId
  tier : child.tier = parent.tier
  priority : child.priority = parent.priority

structure Lawful (before : SovereignContext) (call : Call) (after : SovereignContext) : Prop where
  consistent : Consistent after
  inherits : ∀ now newRequestId, call = .spawnChild now newRequestId → Inherits before after

/-- The first context of the chain is consistent, and every call returns one, lawfully. -/
def ChainConsistent (context : SovereignContext) (calls : List Call) : Prop :=
  Consistent context ∧
    Along step (fun before call => ∀ after, step before call = some after → Lawful before call after) context calls

/-- A context that holds a slot is given a tier without acceleration. -/
def StrandsSlot (context : SovereignContext) : Call → Prop
  | .withTier tier => context.hasTurboSlot = true ∧ tier.usesTurboAcceleration = false
  | _ => False

/-! ## Validity -/

/-- Turbo mode needs a tier with acceleration. -/
def TurboConsistent (context : SovereignContext) : Prop :=
  context.isTurboMode = true → ∃ tier, TenantTier.fromU8 context.tier = some tier ∧ tier.usesTurboAcceleration = true

theorem isValid_iff (context : SovereignContext) :
    context.isValid = true ↔ (context.requestId ≠ "" ∧ context.tenantId ≠ "" ∧ context.traceId ≠ "") ∧
      context.priority ≤ 5 ∧ context.tier ≤ 4 ∧ TurboConsistent context := by
  have turbo : (if context.isTurboMode then
      ((TenantTier.fromU8 context.tier).map (·.usesTurboAcceleration)).getD false else true) = true ↔
      TurboConsistent context := by
    cases mode : context.isTurboMode <;> cases tier : TenantTier.fromU8 context.tier <;>
      simp [TurboConsistent, mode, tier]
  rw [← turbo]
  simp [SovereignContext.isValid, and_assoc, String.isEmpty_eq_false_iff]

theorem getTurboSlot_eq_none (context : SovereignContext) :
    context.getTurboSlot = none ↔ context.hasTurboSlot = false := by
  simp [SovereignContext.getTurboSlot, SovereignContext.hasTurboSlot]

theorem consistent_fresh {context : SovereignContext} (fresh : Fresh context) : Consistent context := by
  cases fresh with
  | new now request tenant trace =>
    constructor
    · rw [isValid_iff]
      refine ⟨⟨request, tenant, trace⟩, ?_, TenantTier.asU8_le .standard, fun turbo => by cases turbo⟩
      change PriorityLevel.high.asU8 ≤ 5
      decide
    · intro _
      rfl
  | newTurbo now request tenant trace =>
    constructor
    · rw [isValid_iff]
      refine ⟨⟨request, tenant, trace⟩, ?_, TenantTier.asU8_le .turbo, fun _ => ⟨.turbo, rfl, rfl⟩⟩
      change PriorityLevel.high.asU8 ≤ 5
      decide
    · intro _
      rfl

/-! ## Calls -/

variable {context : SovereignContext}

theorem isValid_withPriority (valid : context.isValid = true) (priority : UInt8) :
    (context.withPriority priority).isValid = true := by
  rw [isValid_iff] at valid ⊢
  obtain ⟨ids, _, tier, turbo⟩ := valid
  have clamped : min priority 5 ≤ 5 := Std.min_le_right
  exact ⟨ids, clamped, tier, turbo⟩

theorem isValid_withTier (valid : context.isValid = true) (tier : TenantTier) :
    (context.withTier tier).isValid = true := by
  rw [isValid_iff] at valid ⊢
  obtain ⟨ids, priority, _, _⟩ := valid
  refine ⟨ids, priority, TenantTier.asU8_le tier, ?_⟩
  intro turbo
  refine ⟨tier, TenantTier.fromU8_asU8 tier, ?_⟩
  cases accelerated : tier.usesTurboAcceleration with
  | true => rfl
  | false => simp [SovereignContext.withTier, accelerated] at turbo

theorem isValid_allocateTurboSlot (valid : context.isValid = true) (slot : UInt32) :
    (context.allocateTurboSlot slot).isValid = true := by
  rw [isValid_iff] at valid ⊢
  exact valid

theorem isValid_spawnChild (valid : context.isValid = true) (now : UInt64) {newRequestId : String}
    (request : newRequestId ≠ "") : (context.spawnChild now newRequestId).isValid = true := by
  rw [isValid_iff] at valid ⊢
  obtain ⟨⟨_, owner⟩, ranges⟩ := valid
  exact ⟨⟨request, owner⟩, ranges⟩

/-- No call of a chain makes a valid context invalid. -/
theorem isValid_step {after : SovereignContext} {call : Call} (valid : context.isValid = true)
    (stepped : step context call = some after) : after.isValid = true := by
  cases call with
  | withPriority priority =>
    obtain rfl := Option.some.inj stepped
    exact isValid_withPriority valid priority
  | withTier tier =>
    obtain rfl := Option.some.inj stepped
    exact isValid_withTier valid tier
  | allocateTurboSlot slot =>
    obtain ⟨_, same⟩ := Option.ite_none_right_eq_some.mp stepped
    obtain rfl := Option.some.inj same
    exact isValid_allocateTurboSlot valid slot
  | spawnChild now newRequestId =>
    obtain ⟨request, same⟩ := Option.ite_none_right_eq_some.mp stepped
    obtain rfl := Option.some.inj same
    exact isValid_spawnChild valid now request

/-- A child inherits, whatever its parent is. -/
theorem inherits_spawnChild (now : UInt64) (newRequestId : String) :
    Inherits context (context.spawnChild now newRequestId) where
  slotless := rfl
  tenantId := rfl
  traceId := rfl
  tier := rfl
  priority := rfl

/-- After a change of tier the context is outside turbo mode with a slot exactly when the call strands one. -/
theorem slotless_withTier_iff (slotless : context.isTurboMode = false → context.getTurboSlot = none)
    (tier : TenantTier) :
    ((context.withTier tier).isTurboMode = false → (context.withTier tier).getTurboSlot = none) ↔
      ¬ StrandsSlot context (.withTier tier) := by
  rw [getTurboSlot_eq_none] at slotless ⊢
  change (_ → context.hasTurboSlot = false) ↔ _
  cases accelerated : tier.usesTurboAcceleration with
  | true => simpa [StrandsSlot, SovereignContext.withTier, accelerated] using slotless
  | false => simp [StrandsSlot, SovereignContext.withTier, accelerated]

theorem inherits_step {after : SovereignContext} {call : Call} (stepped : step context call = some after) (now : UInt64)
    (newRequestId : String) (spawns : call = .spawnChild now newRequestId) : Inherits context after := by
  rw [spawns] at stepped
  obtain ⟨_, same⟩ := Option.ite_none_right_eq_some.mp stepped
  obtain rfl := Option.some.inj same
  exact inherits_spawnChild now newRequestId

/-- What a call can break is the slot. -/
theorem lawful_iff {after : SovereignContext} {call : Call} (consistent : Consistent context)
    (stepped : step context call = some after) :
    Lawful context call after ↔ (after.isTurboMode = false → after.getTurboSlot = none) := by
  constructor
  · intro lawful
    exact lawful.consistent.slotless
  · intro slotless
    exact ⟨⟨isValid_step consistent.valid stepped, slotless⟩, inherits_step stepped⟩

/-- From a consistent context a call is lawful exactly when it strands no slot. -/
theorem lawful_call_iff (consistent : Consistent context) (call : Call) :
    (∀ after, step context call = some after → Lawful context call after) ↔ ¬ StrandsSlot context call := by
  cases call with
  | withPriority priority =>
    apply iff_of_true _ id
    intro after stepped
    rw [lawful_iff consistent stepped]
    obtain rfl := Option.some.inj stepped
    exact consistent.slotless
  | withTier tier =>
    rw [← slotless_withTier_iff consistent.slotless]
    constructor
    · intro lawful
      exact (lawful _ rfl).consistent.slotless
    · intro slotless after stepped
      rw [lawful_iff consistent stepped]
      obtain rfl := Option.some.inj stepped
      exact slotless
  | allocateTurboSlot slot =>
    apply iff_of_true _ id
    intro after stepped
    rw [lawful_iff consistent stepped]
    obtain ⟨turbo, same⟩ := Option.ite_none_right_eq_some.mp stepped
    obtain rfl := Option.some.inj same
    intro standard
    exact absurd (turbo.symm.trans standard) (by decide)
  | spawnChild now newRequestId =>
    apply iff_of_true _ id
    intro after stepped
    rw [lawful_iff consistent stepped]
    intro _
    exact (inherits_step stepped now newRequestId rfl).slotless

/-! ## Chains -/

/-- A chain keeps its contexts consistent exactly when none of its calls strands a slot. -/
theorem chainConsistent_iff {context : SovereignContext} (fresh : Fresh context) (calls : List Call) :
    ChainConsistent context calls ↔ Along step (fun before call => ¬ StrandsSlot before call) context calls := by
  have start := consistent_fresh fresh
  rw [ChainConsistent, and_iff_right start]
  apply along_congr Consistent (fun _ call consistent => lawful_call_iff consistent call) ?_ start
  intro before call after lawful _ stepped
  exact (lawful after stepped).consistent

/-- An enterprise context with a slot has a child, and the child is given the free tier. -/
theorem chainConsistent_turbo :
    ChainConsistent (.newTurbo 0 "req" "tenant" "trace")
      [.withTier .enterprise, .allocateTurboSlot 42, .spawnChild 1 "child", .withTier .free] :=
  (chainConsistent_iff (.newTurbo 0 (by decide) (by decide) (by decide)) _).mpr (by
    simp [Along, step, StrandsSlot, SovereignContext.withTier, SovereignContext.newTurbo,
      SovereignContext.allocateTurboSlot, SovereignContext.spawnChild, SovereignContext.hasTurboSlot,
      TenantTier.usesTurboAcceleration])

/-- A turbo context is given slot 42 and then the free tier. -/
theorem slot_stranded : ¬ ∀ context, Fresh context → ∀ calls, ChainConsistent context calls := by
  intro always
  have fresh : Fresh (.newTurbo 0 "req" "tenant" "trace") := .newTurbo 0 (by decide) (by decide) (by decide)
  obtain ⟨_, _, lawful, _⟩ := always _ fresh [.allocateTurboSlot 42, .withTier .free]
  have none := (lawful _ rfl).consistent.slotless rfl
  cases none

end Laplace.Soundness.Context
