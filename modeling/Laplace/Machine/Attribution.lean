import Mathlib.Data.List.Basic
import Mathlib.Logic.Function.Basic

/-! # Attributing a trace to the processes that wrote it

Processes draw ids from a common supply and write events under their own id into one trace. As long as
a drawn id was never used, the events under the id of a process are exactly what this process wrote,
in the order in which it wrote them, whatever the other processes do.
-/

namespace Laplace.Machine

/-- Where an entry occurs only at the end of a list, the list splits there in one way. -/
theorem append_singleton_split {α : Type*} {front before after : List α} {last entry : α}
    (split : front ++ [last] = before ++ entry :: after) (apart : entry ∉ front) :
    before = front ∧ entry = last ∧ after = [] := by
  induction front generalizing before with
  | nil =>
    cases before with
    | nil =>
      obtain ⟨rfl, rfl⟩ := List.cons.inj split
      exact ⟨rfl, rfl, rfl⟩
    | cons first rest =>
      have short := (List.cons.inj split).2
      simp at short
  | cons first rest ih =>
    cases before with
    | nil =>
      obtain ⟨rfl, -⟩ := List.cons.inj split
      exact absurd (List.mem_cons_self ..) apart
    | cons first' rest' =>
      obtain ⟨rfl, tails⟩ := List.cons.inj split
      obtain ⟨rfl, same, none⟩ := ih tails (fun member => apart (List.mem_cons_of_mem _ member))
      exact ⟨rfl, same, none⟩

variable {Process Phase Event Id : Type*} [DecidableEq Process] [DecidableEq Id]

/-- The part of a trace that is written under an id. -/
def under (owner : Event → Option Id) (id : Id) (trace : List Event) : List Event :=
  trace.filter fun event => owner event = some id

/-- Every process has an id of its own, and wrote exactly what the trace holds under it. -/
structure Attribution (owner : Event → Option Id) (id : Phase → Option Id) (said : Phase → List Event)
    (used : Id → Prop) (trace : List Event) (phases : Process → Phase) : Prop where
  own : ∀ process name, id (phases process) = some name →
    under owner name trace = said (phases process)
  distinct : ∀ process other name, id (phases process) = some name → id (phases other) = some name →
    process = other
  drawn : ∀ process name, id (phases process) = some name → used name
  written : ∀ event ∈ trace, ∀ name, owner event = some name → ∃ process, id (phases process) = some name

variable {owner : Event → Option Id} {id : Phase → Option Id} {said : Phase → List Event}
  {used : Id → Prop} {trace : List Event} {phases : Process → Phase} {process : Process} {later : Phase}

/-- What a move leaves alone in the moved process, it leaves alone everywhere. -/
theorem update_agrees {β : Type*} (read : Phase → β) (same : read later = read (phases process))
    (other : Process) : read (Function.update phases process later other) = read (phases other) := by
  rcases eq_or_ne other process with rfl | different
  · rw [Function.update_self, same]
  · rw [Function.update_of_ne different]

namespace Attribution

omit [DecidableEq Process] in
theorem under_of_fresh (holds : Attribution owner id said used trace phases) {name : Id}
    (fresh : ¬ used name) : under owner name trace = [] := by
  unfold under
  rw [List.filter_eq_nil_iff]
  intro event member
  simp only [decide_eq_true_eq]
  intro owned
  obtain ⟨process, named⟩ := holds.written event member name owned
  exact fresh (holds.drawn process name named)

/-- A process that keeps its id and writes nothing. -/
theorem keep (holds : Attribution owner id said used trace phases) (sameId : id later = id (phases process))
    (sameSaid : said later = said (phases process)) :
    Attribution owner id said used trace (Function.update phases process later) := by
  have ids := update_agrees id sameId
  have saids := update_agrees said sameSaid
  refine ⟨fun other name named => ?_, fun first second name one two => ?_, fun other name named => ?_,
    fun event member name owned => ?_⟩
  · rw [ids] at named
    rw [saids]
    exact holds.own other name named
  · rw [ids] at one two
    exact holds.distinct first second name one two
  · rw [ids] at named
    exact holds.drawn other name named
  · obtain ⟨other, named⟩ := holds.written event member name owned
    exact ⟨other, by rw [ids, named]⟩

omit [DecidableEq Process] in
/-- The supply may grow. -/
theorem mono (holds : Attribution owner id said used trace phases) {used' : Id → Prop}
    (grows : ∀ name, used name → used' name) : Attribution owner id said used' trace phases :=
  ⟨holds.own, holds.distinct, fun other name named => grows name (holds.drawn other name named),
    holds.written⟩

/-- A process without an id draws one that was never used. -/
theorem draw (holds : Attribution owner id said used trace phases) {used' : Id → Prop} {name : Id}
    (unnamed : id (phases process) = none) (fresh : ¬ used name) (named : id later = some name)
    (silent : said later = []) (grows : ∀ name, used name → used' name)
    (isUsed : used' name) :
    Attribution owner id said used' trace (Function.update phases process later) := by
  have different_of_named : ∀ other, id (phases other) ≠ some name := fun other taken =>
    fresh (holds.drawn other name taken)
  refine ⟨fun other name' named' => ?_, fun first second name' one two => ?_, fun other name' named' => ?_,
    fun event member name' owned => ?_⟩
  · rcases eq_or_ne other process with rfl | different
    · rw [Function.update_self] at named' ⊢
      obtain rfl : name = name' := Option.some.inj (named.symm.trans named')
      rw [silent]
      exact holds.under_of_fresh fresh
    · rw [Function.update_of_ne different] at named' ⊢
      exact holds.own other name' named'
  · rcases eq_or_ne first process with rfl | firstOther <;> rcases eq_or_ne second first with rfl | apart
    · rfl
    · rw [Function.update_self] at one
      rw [Function.update_of_ne apart] at two
      obtain rfl : name = name' := Option.some.inj (named.symm.trans one)
      exact absurd two (different_of_named second)
    · rfl
    · rw [Function.update_of_ne firstOther] at one
      rcases eq_or_ne second process with rfl | secondOther
      · rw [Function.update_self] at two
        obtain rfl : name = name' := Option.some.inj (named.symm.trans two)
        exact absurd one (different_of_named first)
      · rw [Function.update_of_ne secondOther] at two
        exact holds.distinct first second name' one two
  · rcases eq_or_ne other process with rfl | different
    · rw [Function.update_self] at named'
      obtain rfl : name = name' := Option.some.inj (named.symm.trans named')
      exact isUsed
    · rw [Function.update_of_ne different] at named'
      exact grows name' (holds.drawn other name' named')
  · obtain ⟨other, named'⟩ := holds.written event member name' owned
    have different : other ≠ process := by
      rintro rfl
      rw [unnamed] at named'
      cases named'
    exact ⟨other, by rw [Function.update_of_ne different, named']⟩

/-- A process writes under its id. -/
theorem write (holds : Attribution owner id said used trace phases) {event : Event} {name : Id}
    (named : id (phases process) = some name) (owned : owner event = some name)
    (sameId : id later = some name) (appended : said later = said (phases process) ++ [event]) :
    Attribution owner id said used (trace ++ [event]) (Function.update phases process later) := by
  have ids := update_agrees id (sameId.trans named.symm)
  refine ⟨fun other name' named' => ?_, fun first second name' one two => ?_, fun other name' named' => ?_,
    fun other member name' owned' => ?_⟩
  · rw [ids] at named'
    unfold under
    rw [List.filter_append]
    rcases eq_or_ne other process with rfl | different
    · obtain rfl : name = name' := Option.some.inj (named.symm.trans named')
      rw [Function.update_self, appended, ← holds.own other name named]
      simp only [owned, decide_true, List.filter_cons_of_pos, List.filter_nil, under]
    · have apart : ¬ owner event = some name' := by
        rw [owned]
        intro same
        obtain rfl := Option.some.inj same
        exact different (holds.distinct other process name named' named)
      rw [Function.update_of_ne different, ← holds.own other name' named']
      simp only [apart, decide_false, Bool.false_eq_true, not_false_eq_true, List.filter_cons_of_neg,
        List.filter_nil, List.append_nil, under]
  · rw [ids] at one two
    exact holds.distinct first second name' one two
  · rw [ids] at named'
    exact holds.drawn other name' named'
  · rcases List.mem_append.mp member with earlier | last
    · obtain ⟨writer, named'⟩ := holds.written other earlier name' owned'
      exact ⟨writer, by rw [ids, named']⟩
    · obtain rfl := List.mem_singleton.mp last
      obtain rfl := Option.some.inj (owned.symm.trans owned')
      exact ⟨process, by rw [ids, named]⟩

omit [DecidableEq Process] in
/-- An event under no id. -/
theorem note (holds : Attribution owner id said used trace phases) {event : Event}
    (unowned : owner event = none) : Attribution owner id said used (trace ++ [event]) phases := by
  refine ⟨fun other name named => ?_, holds.distinct, holds.drawn, fun other member name owned => ?_⟩
  · rw [← holds.own other name named]
    simp only [under, List.filter_append, List.filter_cons, unowned, reduceCtorEq, decide_false,
      Bool.false_eq_true, if_false, List.filter_nil, List.append_nil]
  · rcases List.mem_append.mp member with earlier | last
    · exact holds.written other earlier name owned
    · obtain rfl := List.mem_singleton.mp last
      rw [unowned] at owned
      cases owned

end Attribution

end Laplace.Machine
