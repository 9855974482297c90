import Laplace.Model.Tenant

/-! # Quotas follow the tier

An upgrade writes the tier and its quotas together, and a refused one writes nothing. The serializer skips the
quotas and the deserializer puts the all-zero default in their place, which is the configuration of no tier, so a
tenant that has been stored and read back has lost its quotas until the next successful upgrade.
-/

namespace Laplace.Soundness.Tenant

open Machine Model.Tenant

/-- The cached quotas are those of the tier, and the two flags read from them agree with it. -/
structure FollowsTier (tenant : TenantMetadata) : Prop where
  resourceConfig : tenant.resourceConfig = .forTier tenant.tier
  turbo : tenant.usesTurbo = tenant.tier.usesTurboAcceleration
  sentinel : tenant.hasSentinel = tenant.tier.hasSentinelMonitoring

/-- The tenant after the operation has the quotas of its tier, the tier has not fallen, and neither a refused
upgrade nor a round trip has changed a field. -/
structure Lawful (before : TenantMetadata) (operation : Operation) (after : TenantMetadata) : Prop where
  follows : FollowsTier after
  rises : before.tier.asU8 ≤ after.tier.asU8
  refused : ∀ newTier error, operation = .upgradeTier newTier →
    (before.upgradeTier newTier).1 = .error error → after = before
  preserved : operation = .roundTrip → after = before

/-- The tenant has the quotas of its tier, and every operation of the run gives a tenant, lawfully. -/
def QuotasFollow (tenant : TenantMetadata) (operations : List Operation) : Prop :=
  FollowsTier tenant ∧ Along step
    (fun before operation => ∃ after, step before operation = some after ∧ Lawful before operation after)
    tenant operations

/-! ## Tiers and quotas -/

theorem forTier_turbo (tier : TenantTier) :
    (ResourceConfig.forTier tier).useTurboAcceleration = tier.usesTurboAcceleration := by cases tier <;> rfl

theorem forTier_sentinel (tier : TenantTier) :
    (ResourceConfig.forTier tier).sentinelMonitoring = tier.hasSentinelMonitoring := by cases tier <;> rfl

theorem default_ne_forTier (tier : TenantTier) : ResourceConfig.default ≠ .forTier tier := by
  cases tier <;> decide

/-- The flags follow once the configuration does. -/
theorem followsTier_of_config {tenant : TenantMetadata} (config : tenant.resourceConfig = .forTier tenant.tier) :
    FollowsTier tenant where
  resourceConfig := config
  turbo := by rw [TenantMetadata.usesTurbo, config, forTier_turbo]
  sentinel := by rw [TenantMetadata.hasSentinel, config, forTier_sentinel]

theorem followsTier_new (millis : ℕ) (tenantId : String) (tier : TenantTier) :
    FollowsTier (.new millis tenantId tier) := by
  apply followsTier_of_config
  rfl

/-! ## Operations -/

theorem upgradeTier_ok {tenant : TenantMetadata} {newTier : TenantTier} (higher : tenant.tier.asU8 < newTier.asU8) :
    tenant.upgradeTier newTier = (.ok (), { tenant with tier := newTier, resourceConfig := .forTier newTier }) :=
  if_pos (TenantTier.canUpgradeTo_iff.mpr higher)

/-- A refused upgrade names both tiers and leaves the tenant as it was. -/
theorem upgradeTier_refused {tenant : TenantMetadata} {newTier : TenantTier}
    (refused : ¬ tenant.tier.asU8 < newTier.asU8) :
    tenant.upgradeTier newTier = (.error (.invalidTierChange tenant.tier newTier), tenant) :=
  if_neg (fun higher => refused (TenantTier.canUpgradeTo_iff.mp higher))

/-- A successful upgrade restores the quotas, whatever they were. -/
theorem followsTier_upgraded {tenant : TenantMetadata} {newTier : TenantTier}
    (higher : tenant.tier.asU8 < newTier.asU8) :
    FollowsTier (tenant.upgradeTier newTier).2 := by
  rw [upgradeTier_ok higher]
  apply followsTier_of_config
  rfl

theorem deserialize_tier (tier : TenantTier) : TenantTier.deserialize tier.serialize = some tier := by
  cases tier <;> rfl

/-- A round trip keeps every field but the quotas. -/
theorem deserialize_serialize (tenant : TenantMetadata) :
    TenantMetadata.deserialize tenant.serialize = some { tenant with resourceConfig := .default } := by
  simp [TenantMetadata.deserialize, TenantMetadata.serialize, Fields.field, Value.asString, Value.asBool, Value.asI64,
    deserialize_tier]

theorem step_isSome (tenant : TenantMetadata) (operation : Operation) : (step tenant operation).isSome := by
  cases operation with
  | upgradeTier newTier => rfl
  | roundTrip => rw [step, deserialize_serialize]; rfl

theorem rises_step {before after : TenantMetadata} {operation : Operation}
    (stepped : step before operation = some after) :
    before.tier.asU8 ≤ after.tier.asU8 := by
  cases operation with
  | upgradeTier newTier =>
    obtain rfl := Option.some.inj stepped
    by_cases higher : before.tier.asU8 < newTier.asU8
    · rw [upgradeTier_ok higher]
      exact UInt8.le_of_lt higher
    · rw [upgradeTier_refused higher]
      exact UInt8.le_refl _
  | roundTrip =>
    rw [step, deserialize_serialize] at stepped
    obtain rfl := Option.some.inj stepped
    exact UInt8.le_refl _

/-- An upgrade of a tenant that follows its tier, granted or refused. -/
theorem lawful_upgradeTier {tenant : TenantMetadata} (follows : FollowsTier tenant) (newTier : TenantTier) :
    Lawful tenant (.upgradeTier newTier) (tenant.upgradeTier newTier).2 where
  follows := by
    by_cases higher : tenant.tier.asU8 < newTier.asU8
    · exact followsTier_upgraded higher
    · rw [upgradeTier_refused higher]
      exact follows
  rises := rises_step (rfl : step tenant (.upgradeTier newTier) = _)
  refused := by
    intro other error same failed
    obtain rfl := Operation.upgradeTier.inj same
    by_cases higher : tenant.tier.asU8 < newTier.asU8
    · rw [upgradeTier_ok higher] at failed
      cases failed
    · rw [upgradeTier_refused higher]
  preserved := by
    intro same
    cases same

/-- No tenant comes back from a round trip with the quotas of its tier. -/
theorem not_followsTier_roundTrip {before after : TenantMetadata} (stepped : step before .roundTrip = some after) :
    ¬ FollowsTier after := by
  intro follows
  rw [step, deserialize_serialize] at stepped
  obtain rfl := Option.some.inj stepped
  exact default_ne_forTier before.tier follows.resourceConfig

/-- From a tenant that follows its tier the lawful operations are the upgrades. -/
theorem lawful_step_iff {before : TenantMetadata} (follows : FollowsTier before) (operation : Operation) :
    (∃ after, step before operation = some after ∧ Lawful before operation after) ↔ operation ≠ .roundTrip := by
  constructor
  · rintro ⟨after, stepped, lawful⟩ rfl
    exact not_followsTier_roundTrip stepped lawful.follows
  · intro upgrade
    cases operation with
    | upgradeTier newTier => exact ⟨_, rfl, lawful_upgradeTier follows newTier⟩
    | roundTrip => exact absurd rfl upgrade

/-! ## Runs -/

/-- The tier never falls, round trips or not. -/
theorem tier_rises {initial final : TenantMetadata} {operations : List Operation}
    (reached : run? step initial operations = some final) : initial.tier.asU8 ≤ final.tier.asU8 := by
  have any : ∀ operation ∈ operations, True := fun _ _ => trivial
  apply run?_invariant (fun tenant => initial.tier.asU8 ≤ tenant.tier.asU8) (UInt8.le_refl _) ?_ reached any
  intro state operation next _ above stepped
  exact UInt8.le_trans above (rises_step stepped)

/-- A run has the quotas follow the tier exactly when it has no round trip. -/
theorem quotasFollow_iff (millis : ℕ) (tenantId : String) (tier : TenantTier) (operations : List Operation) :
    QuotasFollow (.new millis tenantId tier) operations ↔ .roundTrip ∉ operations := by
  have start := followsTier_new millis tenantId tier
  have advance : ∀ state operation next,
      (∃ after, step state operation = some after ∧ Lawful state operation after) → FollowsTier state →
      step state operation = some next → FollowsTier next := by
    rintro state operation next ⟨after, stepped, lawful⟩ _ stepped'
    obtain rfl := Option.some.inj (stepped.symm.trans stepped')
    exact lawful.follows
  rw [QuotasFollow,
    along_congr FollowsTier (fun _ operation follows => lawful_step_iff follows operation) advance start,
    along_forall step_isSome]
  constructor
  · rintro ⟨_, upgrades⟩ member
    exact upgrades _ member rfl
  · intro absent
    exact ⟨start, fun operation member same => absent (same ▸ member)⟩

/-- A tenant on the free tier, stored and read back. -/
theorem quotas_lost : ¬ ∀ millis tenantId tier operations, QuotasFollow (.new millis tenantId tier) operations := by
  intro always
  obtain ⟨_, ⟨after, stepped, lawful⟩, _⟩ := always 0 "acme" .free [.roundTrip]
  exact not_followsTier_roundTrip stepped lawful.follows

end Laplace.Soundness.Tenant
