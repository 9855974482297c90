import Mathlib.Data.List.Basic

/-! # Nested scopes of partial tables

A scope declares names and gives some of them a value. Over a stack of scopes, innermost first, there
are two ways to resolve a name: `overlaid` takes the innermost value, `innermost` the innermost
declaration, whether it has a value or not. They differ when an inner scope declares a name without a
value and an outer scope has one. Nothing here names a program.
-/

namespace Laplace.Machine

/-- A table together with the names its scope declares. -/
structure NameScope (κ ν : Type*) where
  table : κ → Option ν
  declares : κ → Prop
  closed : ∀ key, table key ≠ none → declares key

variable {κ ν : Type*}

/-- Overlay the tables: the innermost one with a value wins. -/
def overlaid : List (NameScope κ ν) → κ → Option ν
  | [], _ => none
  | scope :: outer, key => (scope.table key).or (overlaid outer key)

open Classical in
/-- The innermost declaration decides, also when it has no value. -/
noncomputable def innermost : List (NameScope κ ν) → κ → Option ν
  | [], _ => none
  | scope :: outer, key => if scope.declares key then scope.table key else innermost outer key

/-- No scope gives the name a value. -/
def Unvalued (scopes : List (NameScope κ ν)) (key : κ) : Prop := ∀ scope ∈ scopes, scope.table key = none

/-- Outside the innermost declaration of the name, a value exists only if that declaration has one. -/
def Respected : List (NameScope κ ν) → κ → Prop
  | [], _ => True
  | scope :: outer, key =>
      (scope.declares key → scope.table key = none → Unvalued outer key) ∧
        (¬ scope.declares key → Respected outer key)

theorem overlaid_eq_none_iff (scopes : List (NameScope κ ν)) (key : κ) :
    overlaid scopes key = none ↔ Unvalued scopes key := by
  induction scopes with
  | nil => exact iff_of_true rfl fun _ member => absurd member List.not_mem_nil
  | cons scope outer ih =>
    rw [overlaid, Option.or_eq_none_iff, ih, Unvalued, Unvalued, List.forall_mem_cons]

/-- The two resolutions agree exactly where the innermost declaration is respected. -/
theorem overlaid_eq_innermost_iff (scopes : List (NameScope κ ν)) (key : κ) :
    overlaid scopes key = innermost scopes key ↔ Respected scopes key := by
  induction scopes with
  | nil => exact iff_of_true rfl trivial
  | cons scope outer ih =>
    rw [overlaid, innermost, Respected]
    by_cases declared : scope.declares key
    · rw [if_pos declared]
      cases bound : scope.table key with
      | none =>
        rw [Option.none_or, overlaid_eq_none_iff]
        exact ⟨fun unvalued => ⟨fun _ _ => unvalued, fun other => absurd declared other⟩,
          fun respected => respected.1 declared rfl⟩
      | some value =>
        rw [Option.some_or]
        exact iff_of_true rfl ⟨fun _ none => absurd none (by simp), fun other => absurd declared other⟩
    · have unbound : scope.table key = none := by
        by_contra bound
        exact declared (scope.closed key bound)
      rw [if_neg declared, unbound, Option.none_or, ih]
      exact ⟨fun respected => ⟨fun here => absurd here declared, fun _ => respected⟩,
        fun respected => respected.2 declared⟩

end Laplace.Machine
