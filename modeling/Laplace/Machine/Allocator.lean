import Mathlib.Data.Fintype.Sum
import Mathlib.Data.Fintype.EquivFin
import Mathlib.Logic.Function.Basic

/-! # Fresh ids from a checked counter

An allocator hands out the values of a 64-bit counter, one to each key that asks, and refuses once
the counter is exhausted. Keys can be forgotten; their ids are never handed out again. Two
allocators that served the same keys differ by an injective renaming of ids, which may be chosen to
fix any set of ids that neither of them handed out.
-/

namespace Laplace.Machine

/-- What each key was given, and the counter. -/
structure Allocator (Key : Type*) where
  table : Key → Option UInt64 := fun _ => none
  next : UInt64

namespace Allocator

variable {Key : Type*} [DecidableEq Key]

/-- The counter is advanced by a checked addition: its last value is never handed out. -/
def ensure (allocator : Allocator Key) (key : Key) : Option (Allocator Key) :=
  match allocator.table key with
  | some _ => some allocator
  | none =>
      if allocator.next.toNat + 1 < 2 ^ 64 then
        some { table := Function.update allocator.table key (some allocator.next)
               next := allocator.next + 1 }
      else none

omit [DecidableEq Key] in
/-- Forget the keys that are not kept. -/
def retain (allocator : Allocator Key) (kept : Key → Bool) : Allocator Key :=
  { allocator with table := fun key => if kept key then allocator.table key else none }

/-- Another table of the same counter: its own entries, and the shared ones of `wide`. -/
def within (own wide : Allocator Key) (shared : Key → Bool) : Allocator Key where
  table key := if shared key then wide.table key else own.table key
  next := wide.next

/-- Every id handed out lies between the first value of the counter and its current one, and has
one key. -/
structure Fresh (first : UInt64) (allocator : Allocator Key) : Prop where
  first_le : first ≤ allocator.next
  bounded : ∀ key id, allocator.table key = some id → first ≤ id ∧ id < allocator.next
  injective : ∀ key other id, allocator.table key = some id → allocator.table other = some id → key = other

theorem ensure_cases {allocator next : Allocator Key} {key : Key}
    (ensured : allocator.ensure key = some next) :
    ((∃ id, allocator.table key = some id) ∧ next = allocator) ∨
      (allocator.table key = none ∧ allocator.next < allocator.next + 1 ∧
        next = ⟨Function.update allocator.table key (some allocator.next), allocator.next + 1⟩) := by
  unfold ensure at ensured
  split at ensured
  · next id given => exact Or.inl ⟨⟨id, given⟩, (Option.some.inj ensured).symm⟩
  · next missing =>
    split at ensured
    · next room =>
      refine Or.inr ⟨missing, ?_, (Option.some.inj ensured).symm⟩
      rw [UInt64.lt_iff_toNat_lt, UInt64.toNat_add, UInt64.toNat_one, Nat.mod_eq_of_lt room]
      exact Nat.lt_succ_self _
    · cases ensured

/-- A key keeps its id. -/
theorem ensure_table {allocator next : Allocator Key} {key other : Key} {id : UInt64}
    (ensured : allocator.ensure key = some next) (given : allocator.table other = some id) :
    next.table other = some id := by
  rcases ensure_cases ensured with ⟨-, rfl⟩ | ⟨missing, -, rfl⟩
  · exact given
  · have different : other ≠ key := by
      rintro rfl
      rw [missing] at given
      cases given
    exact (Function.update_of_ne different _ _).trans given

omit [DecidableEq Key] in
theorem fresh_start (first : UInt64) : Fresh first ({ next := first } : Allocator Key) where
  first_le := UInt64.le_refl first
  bounded := fun _ _ given => by cases given
  injective := fun _ _ _ given => by cases given

theorem Fresh.ensure {first : UInt64} {allocator next : Allocator Key} {key : Key}
    (fresh : Fresh first allocator) (ensured : allocator.ensure key = some next) : Fresh first next := by
  rcases ensure_cases ensured with ⟨-, rfl⟩ | ⟨missing, grows, rfl⟩
  · exact fresh
  · refine ⟨UInt64.le_trans fresh.first_le (UInt64.le_of_lt grows), ?_, ?_⟩
    · intro other id given
      change Function.update allocator.table key (some allocator.next) other = some id at given
      by_cases same : other = key
      · subst same
        rw [Function.update_self] at given
        obtain rfl := Option.some.inj given
        exact ⟨fresh.first_le, grows⟩
      · rw [Function.update_of_ne same] at given
        have bound := fresh.bounded other id given
        exact ⟨bound.1, UInt64.lt_trans bound.2 grows⟩
    · intro other another id given again
      change Function.update allocator.table key (some allocator.next) other = some id at given
      change Function.update allocator.table key (some allocator.next) another = some id at again
      -- an id handed out earlier is below the counter, so it is not the new one
      have apart : ∀ earlier, allocator.table earlier ≠ some allocator.next := by
        intro earlier old
        exact UInt64.lt_irrefl _ (fresh.bounded earlier _ old).2
      by_cases same : other = key <;> by_cases equal : another = key
      · rw [same, equal]
      · rw [same, Function.update_self] at given
        rw [Function.update_of_ne equal, ← given] at again
        exact absurd again (apart another)
      · rw [equal, Function.update_self] at again
        rw [Function.update_of_ne same, ← again] at given
        exact absurd given (apart other)
      · rw [Function.update_of_ne same] at given
        rw [Function.update_of_ne equal] at again
        exact fresh.injective other another id given again

omit [DecidableEq Key] in
theorem Fresh.retain {first : UInt64} {allocator : Allocator Key} (fresh : Fresh first allocator)
    (kept : Key → Bool) : Fresh first (allocator.retain kept) := by
  have old : ∀ key id, (allocator.retain kept).table key = some id → allocator.table key = some id := by
    intro key id given
    change (if kept key then allocator.table key else none) = some id at given
    split at given
    · exact given
    · cases given
  refine ⟨fresh.first_le, fun key id given => fresh.bounded key id (old key id given), ?_⟩
  intro key other id given again
  exact fresh.injective key other id (old key id given) (old other id again)

omit [DecidableEq Key] in
theorem within_within (own other : Allocator Key) (shared : Key → Bool) :
    own.within (other.within own shared) shared = own := by
  have table : (own.within (other.within own shared) shared).table = own.table := by
    funext key
    change (if shared key then (if shared key then own.table key else other.table key) else own.table key) =
      own.table key
    split <;> rfl
  cases own with
  | mk own next => exact congrArg (Allocator.mk · next) table

/-- What another table is given at a shared key is given here too; at a key of its own the counter moves on. -/
theorem within_ensure {own other next : Allocator Key} {shared : Key → Bool} {key : Key}
    (ensured : (other.within own shared).ensure key = some next) :
    own.within next shared = own ∨ own.ensure key = some (own.within next shared) ∨
      (own.next < own.next + 1 ∧ own.within next shared = ⟨own.table, own.next + 1⟩) := by
  rcases ensure_cases ensured with ⟨-, rfl⟩ | ⟨missing, grows, rfl⟩
  · exact .inl (within_within own other shared)
  · change own.next < own.next + 1 at grows
    cases kept : shared key with
    | true =>
      change (if shared key then own.table key else other.table key) = none at missing
      rw [kept, if_pos rfl] at missing
      refine .inr (.inl ?_)
      have room : own.next.toNat + 1 < 2 ^ 64 := by
        rw [UInt64.lt_iff_toNat_lt, UInt64.toNat_add, UInt64.toNat_one] at grows
        have := own.next.toNat_lt
        omega
      rw [ensure, missing]
      change (if own.next.toNat + 1 < 2 ^ 64 then _ else _) = _
      rw [if_pos room]
      have table : Function.update own.table key (some own.next) = fun other' =>
          if shared other' then Function.update (other.within own shared).table key (some own.next) other'
          else own.table other' := by
        funext asked
        by_cases same : asked = key
        · rw [same, Function.update_self, Function.update_self, kept, if_pos rfl]
        · rw [Function.update_of_ne same, Function.update_of_ne same]
          change _ = if shared asked then (if shared asked then own.table asked else _) else own.table asked
          split <;> rfl
      exact congrArg (fun table => some (Allocator.mk table (own.next + 1))) table
    | false =>
      refine .inr (.inr ⟨grows, ?_⟩)
      have table : (own.within ⟨Function.update (other.within own shared).table key (some own.next), own.next + 1⟩
          shared).table = own.table := by
        funext asked
        change (if shared asked then Function.update (other.within own shared).table key (some own.next) asked
          else own.table asked) = own.table asked
        split
        · next shares =>
          have different : asked ≠ key := by
            rintro rfl
            rw [kept] at shares
            cases shares
          rw [Function.update_of_ne different]
          exact if_pos shares
        · rfl
      exact congrArg (Allocator.mk · (own.next + 1)) table

omit [DecidableEq Key] in
theorem Fresh.advance {first : UInt64} {allocator : Allocator Key} (fresh : Fresh first allocator)
    (grows : allocator.next < allocator.next + 1) : Fresh first ⟨allocator.table, allocator.next + 1⟩ :=
  ⟨UInt64.le_trans fresh.first_le (UInt64.le_of_lt grows),
    fun key id given => (fresh.bounded key id given).imp_right fun below => UInt64.lt_trans below grows,
    fresh.injective⟩

/-- An allocator serves a name that asks, or none. -/
def Serves (asked given : Allocator Key) : Prop := given = asked ∨ ∃ key, asked.ensure key = some given

theorem Serves.fresh {first : UInt64} {own other next : Allocator Key} {shared : Key → Bool}
    (serves : (other.within own shared).Serves next) (fresh : Fresh first own) :
    Fresh first (own.within next shared) := by
  rcases serves with rfl | ⟨key, ensured⟩
  · rw [within_within]
    exact fresh
  · rcases within_ensure ensured with same | served | ⟨grows, same⟩
    · rw [same]
      exact fresh
    · exact fresh.ensure served
    · rw [same]
      exact fresh.advance grows

theorem Serves.table {own other next : Allocator Key} {shared : Key → Bool} {key : Key} {id : UInt64}
    (serves : (other.within own shared).Serves next) (given : own.table key = some id) :
    (own.within next shared).table key = some id := by
  rcases serves with rfl | ⟨asked, ensured⟩
  · rw [within_within]
    exact given
  · rcases within_ensure ensured with same | served | ⟨-, same⟩
    · rw [same]
      exact given
    · exact ensure_table served given
    · rw [same]
      exact given

end Allocator

instance finiteUInt64 : Finite UInt64 :=
  Finite.of_injective UInt64.toFin fun _ _ equal => UInt64.toFin_inj.mp equal

end Laplace.Machine
