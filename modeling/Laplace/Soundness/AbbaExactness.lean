import Laplace.Model.HarnessSpec
import Mathlib.Data.List.Induction
import Mathlib.Data.List.Pairwise

/-! # What the check for opposite acquisitions finds

The pairs that are taken from a thread are its acquisitions under held resources, one resource taken twice among
them. So a resource that two threads each take again is found to be in opposite order with itself.
-/

namespace Laplace.Soundness.Abba

open Model.Dsl

/-- The action acquires or releases the resource. -/
def touches (resource : ResourceId) : ThreadAction → Bool
  | .acquire other | .release other => other == resource
  | _ => false

/-- The last acquisition or release of the resource is an acquisition. -/
def Holds (before : List ThreadAction) (resource : ResourceId) : Prop :=
  (before.filter (touches resource)).getLast? = some (.acquire resource)

/-- The thread acquires one resource while it holds the other. -/
def AcquiresHolding (actions : List ThreadAction) (held acquired : ResourceId) : Prop :=
  ∃ before after, actions = before ++ .acquire acquired :: after ∧ Holds before held

/-- Two different threads of the list take two resources in opposite orders. -/
def TakesOpposite (spec : HarnessSpec) (a b : ResourceId) : Prop :=
  ∃ (i j : ℕ) (one other : ThreadSpec), i ≠ j ∧ spec.threads[i]? = some one ∧ spec.threads[j]? = some other ∧
    AcquiresHolding one.actions a b ∧ AcquiresHolding other.actions b a

def AbbaDeadlock (spec : HarnessSpec) : Prop := ∃ a b, a ≠ b ∧ TakesOpposite spec a b

/-- Two different threads of the list each acquire one resource again while they hold it. -/
def CommonReentry (spec : HarnessSpec) : Prop := ∃ a, TakesOpposite spec a a

/-! ## One thread -/

theorem holds_snoc (before : List ThreadAction) (action : ThreadAction) (resource : ResourceId) :
    Holds (before ++ [action]) resource ↔
      if touches resource action then action = .acquire resource else Holds before resource := by
  by_cases touched : touches resource action = true
  · simp [Holds, touched]
  · simp [Holds, touched]

theorem acquiresHolding_snoc (actions : List ThreadAction) (action : ThreadAction) (held acquired : ResourceId) :
    AcquiresHolding (actions ++ [action]) held acquired ↔
      AcquiresHolding actions held acquired ∨ (action = .acquire acquired ∧ Holds actions held) := by
  constructor
  · rintro ⟨before, after, split, holds⟩
    rcases List.eq_nil_or_concat after with rfl | ⟨after, last, rfl⟩
    · obtain ⟨rfl, same⟩ := List.append_inj' split rfl
      exact .inr ⟨(List.cons.inj same).1, holds⟩
    · rw [List.concat_eq_append, ← List.cons_append, ← List.append_assoc] at split
      exact .inl ⟨before, after, (List.append_inj' split rfl).1, holds⟩
  · rintro (⟨before, after, rfl, holds⟩ | ⟨rfl, holds⟩)
    · exact ⟨before, after ++ [action], by simp, holds⟩
    · exact ⟨actions, [], rfl, holds⟩

/-- The local lists describe the actions read so far. -/
structure Describes (actions : List ThreadAction) (extraction : Extraction) : Prop where
  held : ∀ resource, resource ∈ extraction.held ↔ Holds actions resource
  pairs : ∀ held acquired, (held, acquired) ∈ extraction.pairs ↔ AcquiresHolding actions held acquired

theorem Describes.read {actions : List ThreadAction} {extraction : Extraction}
    (describes : Describes actions extraction) (action : ThreadAction) :
    Describes (actions ++ [action]) (extraction.read action) := by
  constructor
  · intro resource
    rw [holds_snoc]
    cases action with
    | acquire other =>
      simp only [Extraction.read, touches, beq_iff_eq, ThreadAction.acquire.injEq, ← describes.held]
      split
      · by_cases same : other = resource
        · subst same
          simpa
        · simp [same]
      · by_cases same : other = resource
        · simp [same]
        · simp [same, Ne.symm same]
    | release other =>
      simp only [Extraction.read, touches, beq_iff_eq, reduceCtorEq, List.mem_filter, decide_eq_true_eq,
        ← describes.held]
      by_cases same : other = resource
      · simp [same]
      · simp [same, Ne.symm same]
    | gate id => exact describes.held resource
    | releaseGate id => exact describes.held resource
    | finish => exact describes.held resource
  · intro held acquired
    rw [acquiresHolding_snoc, ← describes.pairs, ← describes.held]
    cases action with
    | acquire other =>
      simp only [Extraction.read, List.mem_append, List.mem_map, Prod.mk.injEq, ThreadAction.acquire.injEq]
      apply or_congr_right
      constructor
      · rintro ⟨prior, member, rfl, rfl⟩
        exact ⟨rfl, member⟩
      · rintro ⟨rfl, member⟩
        exact ⟨held, member, rfl, rfl⟩
    | release other => simp [Extraction.read]
    | gate id => simp [Extraction.read]
    | releaseGate id => simp [Extraction.read]
    | finish => simp [Extraction.read]

theorem describes_foldl (actions : List ThreadAction) : Describes actions (actions.foldl Extraction.read {}) := by
  induction actions using List.reverseRecOn with
  | nil =>
    constructor
    · intro resource
      simp [Holds]
    · intro held acquired
      simp [AcquiresHolding]
  | append_singleton actions action ih =>
    rw [List.foldl_append]
    exact ih.read action

theorem mem_heldAcquisitionPairs (thread : ThreadSpec) (held acquired : ResourceId) :
    (held, acquired) ∈ heldAcquisitionPairs thread ↔ AcquiresHolding thread.actions held acquired :=
  (describes_foldl thread.actions).pairs held acquired

/-! ## Pairs of threads -/

theorem acquisitionPairsConflict_iff (one other : ThreadSpec) :
    acquisitionPairsConflict one other = true ↔
      ∃ a b, AcquiresHolding one.actions a b ∧ AcquiresHolding other.actions b a := by
  simp only [acquisitionPairsConflict, List.any_eq_true, Prod.exists, Bool.and_eq_true, beq_iff_eq,
    mem_heldAcquisitionPairs]
  constructor
  · rintro ⟨a, b, left, _, _, right, rfl, rfl⟩
    exact ⟨a, b, left, right⟩
  · rintro ⟨a, b, left, right⟩
    exact ⟨a, b, left, b, a, right, rfl, rfl⟩

theorem acquisitionPairsConflict_comm (one other : ThreadSpec) :
    acquisitionPairsConflict one other = true ↔ acquisitionPairsConflict other one = true := by
  simp only [acquisitionPairsConflict_iff]
  constructor <;> exact fun ⟨a, b, left, right⟩ => ⟨b, a, right, left⟩

/-- The loops compare each thread with every later one. -/
theorem anyConflict_eq_false_iff (threads : List ThreadSpec) :
    anyConflict threads = false ↔ threads.Pairwise fun one other => acquisitionPairsConflict one other = false := by
  induction threads with
  | nil => simp [anyConflict]
  | cons thread later ih => simp [anyConflict, List.pairwise_cons, ih]

theorem detectsAbbaDeadlock_iff (spec : HarnessSpec) :
    spec.detectsAbbaDeadlock = true ↔ ∃ a b, TakesOpposite spec a b := by
  rw [HarnessSpec.detectsAbbaDeadlock, ← Bool.not_eq_false, anyConflict_eq_false_iff, List.pairwise_iff_getElem]
  constructor
  · intro conflicts
    push Not at conflicts
    obtain ⟨i, j, below, below', before, conflict⟩ := conflicts
    obtain ⟨a, b, left, right⟩ := (acquisitionPairsConflict_iff _ _).mp (Bool.not_eq_false _ |>.mp conflict)
    exact ⟨a, b, i, j, _, _, Nat.ne_of_lt before, List.getElem?_eq_getElem below, List.getElem?_eq_getElem below',
      left, right⟩
  · rintro ⟨a, b, i, j, one, other, distinct, first, second, left, right⟩ clean
    obtain ⟨below, rfl⟩ := List.getElem?_eq_some_iff.mp first
    obtain ⟨below', rfl⟩ := List.getElem?_eq_some_iff.mp second
    have conflict := (acquisitionPairsConflict_iff _ _).mpr ⟨a, b, left, right⟩
    rcases Nat.lt_or_gt_of_ne distinct with before | before
    · exact absurd conflict (Bool.eq_false_iff.mp (clean i j below below' before))
    · apply absurd ((acquisitionPairsConflict_comm _ _).mp conflict)
      exact Bool.eq_false_iff.mp (clean j i below' below before)

/-- **Where the check is exact.** It says whether two threads take two different resources in opposite orders,
exactly if no two threads each take one resource again, or some two also take two different ones so. -/
theorem detects_abba_exact (spec : HarnessSpec) :
    (spec.detectsAbbaDeadlock = true ↔ AbbaDeadlock spec) ↔ (CommonReentry spec → AbbaDeadlock spec) := by
  rw [detectsAbbaDeadlock_iff]
  constructor
  · rintro found ⟨a, opposite⟩
    exact found.mp ⟨a, a, opposite⟩
  · intro reentry
    constructor
    · rintro ⟨a, b, opposite⟩
      by_cases same : a = b
      · subst same
        exact reentry ⟨a, opposite⟩
      · exact ⟨a, b, same, opposite⟩
    · rintro ⟨a, b, -, opposite⟩
      exact ⟨a, b, opposite⟩

/-- Two threads that each take the one resource twice. -/
def reentrantSpec : HarnessSpec where
  threads := List.replicate 2 ⟨[.acquire ⟨"m1"⟩, .acquire ⟨"m1"⟩, .finish]⟩

/-- They are reported, and there is no second resource. -/
theorem reentrantSpec_reported : reentrantSpec.detectsAbbaDeadlock = true ∧ ¬ AbbaDeadlock reentrantSpec := by
  have only {index : ℕ} {thread : ThreadSpec} (listed : reentrantSpec.threads[index]? = some thread)
      {held acquired : ResourceId} (acquires : AcquiresHolding thread.actions held acquired) :
      acquired = ⟨"m1"⟩ := by
    obtain ⟨before, after, split, -⟩ := acquires
    have member : ThreadAction.acquire acquired ∈ thread.actions := by
      rw [split]
      exact List.mem_append_right _ List.mem_cons_self
    rw [List.eq_of_mem_replicate (List.mem_of_getElem? listed)] at member
    simpa using member
  constructor
  · decide
  · rintro ⟨a, b, distinct, i, j, one, other, -, first, second, left, right⟩
    exact distinct ((only second right).trans (only first left).symm)

end Laplace.Soundness.Abba
