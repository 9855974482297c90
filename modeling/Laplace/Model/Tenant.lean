import Laplace.Machine.Run
import Mathlib.Data.Nat.Notation

/-! # Tenants

A tenant keeps the quotas of its tier beside the tier itself. `new` and `upgrade_tier` write both; the derived
serializer skips the quotas, and the derived deserializer fills them in with `Default`. A serialized tenant is the
list of its fields in serde's data model; `usize` has 64 bits.
-/

namespace Laplace.Model.Tenant

inductive TenantTier where
  | free
  | standard
  | turbo
  | pro
  | enterprise
deriving DecidableEq, Repr

namespace TenantTier

def usesTurboAcceleration : TenantTier → Bool
  | turbo | pro | enterprise => true
  | _ => false

def hasSentinelMonitoring : TenantTier → Bool
  | enterprise => true
  | _ => false

def fromU8 (value : UInt8) : Option TenantTier :=
  match value with
  | 0 => some free
  | 1 => some standard
  | 2 => some turbo
  | 3 => some pro
  | 4 => some enterprise
  | _ => none

def asU8 : TenantTier → UInt8
  | free => 0
  | standard => 1
  | turbo => 2
  | pro => 3
  | enterprise => 4

def canUpgradeTo (tier target : TenantTier) : Bool := decide (tier.asU8 < target.asU8)

@[simp] theorem fromU8_asU8 (tier : TenantTier) : fromU8 tier.asU8 = some tier := by cases tier <;> rfl

theorem asU8_le (tier : TenantTier) : tier.asU8 ≤ 4 := by cases tier <;> decide

theorem canUpgradeTo_iff {tier target : TenantTier} : tier.canUpgradeTo target = true ↔ tier.asU8 < target.asU8 :=
  decide_eq_true_iff

end TenantTier

structure ResourceConfig where
  maxConcurrentRequests : UInt64 := 0
  /-- In milliseconds. -/
  maxExecutionTime : ℕ := 0
  maxMemoryMb : UInt64 := 0
  maxCpuTimeMs : UInt64 := 0
  useTurboAcceleration : Bool := false
  sentinelMonitoring : Bool := false
deriving DecidableEq, Repr

namespace ResourceConfig

/-- The derived `Default`. -/
def default : ResourceConfig := {}

def forTier : TenantTier → ResourceConfig
  | .free => ⟨5, 100, 128, 100, false, false⟩
  | .standard => ⟨20, 500, 512, 500, false, false⟩
  | .turbo => ⟨100, 2000, 2048, 2000, true, false⟩
  | .pro => ⟨500, 10000, 8192, 10000, true, false⟩
  | .enterprise => ⟨0xffffffffffffffff, 60000, 0xffffffffffffffff, 0xffffffffffffffff, true, true⟩

end ResourceConfig

structure TenantMetadata where
  tenantId : String
  tier : TenantTier
  resourceConfig : ResourceConfig
  active : Bool
  createdAt : Int64
  storageTree : String
  fsRoot : String
deriving DecidableEq, Repr

inductive TenantError where
  | invalidTierChange (current requested : TenantTier)
deriving DecidableEq, Repr

namespace TenantMetadata

/-- `millis` is the system time since the epoch, cast with `as i64`. -/
def new (millis : ℕ) (tenantId : String) (tier : TenantTier) : TenantMetadata where
  storageTree := "tenant_db_" ++ tenantId
  fsRoot := "root/tenants/" ++ tenantId
  tenantId := tenantId
  tier := tier
  resourceConfig := .forTier tier
  active := true
  createdAt := Int64.ofNat millis

def usesTurbo (tenant : TenantMetadata) : Bool := tenant.resourceConfig.useTurboAcceleration

def hasSentinel (tenant : TenantMetadata) : Bool := tenant.resourceConfig.sentinelMonitoring

/-- The result, and the tenant as the call leaves it. -/
def upgradeTier (tenant : TenantMetadata) (newTier : TenantTier) : Except TenantError Unit × TenantMetadata :=
  if tenant.tier.canUpgradeTo newTier then
    (.ok (), { tenant with tier := newTier, resourceConfig := .forTier newTier })
  else (.error (.invalidTierChange tenant.tier newTier), tenant)

end TenantMetadata

/-! ## The derived serializer -/

/-- serde's data model, as far as a tenant uses it; a unit variant is its name. -/
inductive Value where
  | string (value : String)
  | variant (name : String)
  | boolean (value : Bool)
  | i64 (value : Int64)
deriving DecidableEq, Repr

abbrev Fields := List (String × Value)

/-- A field that is missing or given twice is an error; a field that is not asked for is ignored. -/
def Fields.field (fields : Fields) (name : String) : Option Value :=
  match fields.filter (·.1 == name) with
  | [(_, value)] => some value
  | _ => none

namespace Value

def asString : Value → Option String
  | string value => some value
  | _ => none

def asBool : Value → Option Bool
  | boolean value => some value
  | _ => none

def asI64 : Value → Option Int64
  | i64 value => some value
  | _ => none

end Value

def TenantTier.serialize : TenantTier → Value
  | free => .variant "Free"
  | standard => .variant "Standard"
  | turbo => .variant "Turbo"
  | pro => .variant "Pro"
  | enterprise => .variant "Enterprise"

def TenantTier.deserialize : Value → Option TenantTier
  | .variant "Free" => some free
  | .variant "Standard" => some standard
  | .variant "Turbo" => some turbo
  | .variant "Pro" => some pro
  | .variant "Enterprise" => some enterprise
  | _ => none

namespace TenantMetadata

/-- `resource_config` is marked `#[serde(skip)]`. -/
def serialize (tenant : TenantMetadata) : Fields :=
  [("tenant_id", .string tenant.tenantId), ("tier", tenant.tier.serialize), ("active", .boolean tenant.active),
    ("created_at", .i64 tenant.createdAt), ("storage_tree", .string tenant.storageTree),
    ("fs_root", .string tenant.fsRoot)]

def deserialize (fields : Fields) : Option TenantMetadata := do
  let tenantId ← (← fields.field "tenant_id").asString
  let tier ← TenantTier.deserialize (← fields.field "tier")
  let active ← (← fields.field "active").asBool
  let createdAt ← (← fields.field "created_at").asI64
  let storageTree ← (← fields.field "storage_tree").asString
  let fsRoot ← (← fields.field "fs_root").asString
  return { tenantId, tier, resourceConfig := .default, active, createdAt, storageTree, fsRoot }

end TenantMetadata

/-! ## Runs -/

inductive Operation where
  | upgradeTier (newTier : TenantTier)
  /-- The tenant is serialized and read back. -/
  | roundTrip
deriving DecidableEq, Repr

/-- Only a round trip can fail to give a tenant. -/
def step (tenant : TenantMetadata) : Operation → Option TenantMetadata
  | .upgradeTier newTier => some (tenant.upgradeTier newTier).2
  | .roundTrip => TenantMetadata.deserialize tenant.serialize

end Laplace.Model.Tenant
