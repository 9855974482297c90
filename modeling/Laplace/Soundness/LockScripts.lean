import Laplace.Machine.WaitOrder
import Laplace.Model.LockPrograms
import Laplace.Soundness.ThreadTraces

/-! # Scripts of threads with instrumented locks

A thread performs a fixed list of effects, whatever the schedule. So the captured lock events of a thread are those of
its body as far as it has come, and the real holders of the locks are given by the same lists. Of a tracked lock, what
a thread has acquired in the capture and not released since, it really holds.
-/

namespace Laplace.Soundness.LockPrograms

open Laplace.Machine Laplace.Model Laplace.Model.LockPrograms

/-- The mode in which the verifier records an acquisition. -/
def mode : Access → HoldMode
  | .read => .shared
  | .lock | .write | .modelLock | .modelRead | .modelWrite => .exclusive

/-- Of model locks the verifier takes readers for writers. -/
theorem modesConflict_of_conflicts {one other : Access} (conflict : one.conflicts other = true) :
    modesConflict (mode one) (mode other) = true := by
  cases one <;> cases other <;> first | rfl | cases conflict

theorem conflicts_comm (one other : Access) : one.conflicts other = other.conflicts one := by
  rw [Access.conflicts, Access.conflicts, Bool.and_comm]

theorem lockOp?_acquired (access : Access) (threadId : UInt64) (resource : String) :
    lockOp? (access.acquired.event threadId resource) = some ⟨threadId, resource, mode access, true⟩ := by
  cases access <;> rfl

theorem lockOp?_released (access : Access) (threadId : UInt64) (resource : String) :
    lockOp? (access.released.event threadId resource) = some ⟨threadId, resource, .exclusive, false⟩ := by
  cases access <;> rfl

/-! ## What a thread performs -/

/-- The locks that a thread holds, the newest first. -/
abbrev Held := List (String × Access)

def guardOf (threadId : UInt64) (hold : String × Access) : Guard :=
  ⟨hold.1, hold.2, if hold.2.isHooked then none else some threadId⟩

def releases (threadId : UInt64) (hold : String × Access) : List Effect :=
  if hold.2.isHooked then
    [.currentThreadId, .emit (hold.2.released.event threadId hold.1), .give hold.1 hold.2]
  else [.emit (hold.2.released.event threadId hold.1), .give hold.1 hold.2]

def acquires (threadId : UInt64) (hold : String × Access) : List Effect :=
  if hold.2.isHooked then
    [.currentThreadId, .emit (hold.2.acquired.event threadId hold.1), .take hold.1 hold.2]
  else [.currentThreadId, .take hold.1 hold.2, .emit (hold.2.acquired.event threadId hold.1)]

/-- What is held after a command. -/
def after (held : Held) : Command → Held
  | .acquire access resource => (resource, access) :: held
  | .drop resource => held.eraseP (·.1 == resource)

def performs (threadId : UInt64) (held : Held) : Command → List Effect
  | .acquire access resource => acquires threadId (resource, access)
  | .drop resource => ((held.find? (·.1 == resource)).map (releases threadId)).getD []

/-- What these commands perform, from where the thread holds these locks. -/
def effects (threadId : UInt64) : Held → List Command → List Effect
  | _, [] => []
  | held, command :: commands => performs threadId held command ++ effects threadId (after held command) commands

/-- The commands, and the drops at the end of the body. -/
def closing : Held → List Command → List Command
  | held, [] => held.map fun hold => .drop hold.1
  | held, command :: commands => command :: closing (after held command) commands

/-- The replies that a thread gets. -/
def known (threadId : UInt64) : (effect : Effect) → effect.Reply
  | .currentThreadId => threadId
  | .take .. | .give .. | .emit _ => ()

section Scripts

variable {threadId : UInt64} {held : Held}

theorem script_drop (hold : String × Access) :
    (guardOf threadId hold).drop.script (known threadId) = releases threadId hold := by
  obtain ⟨resource, access⟩ := hold
  cases access <;> rfl

theorem script_acquire (access : Access) (resource : String) :
    (acquire access resource).script (known threadId) = acquires threadId (resource, access) := by
  cases access <;> rfl

theorem result_acquire (access : Access) (resource : String) :
    (acquire access resource).result (known threadId) = guardOf threadId (resource, access) := by
  cases access <;> rfl

theorem script_dropAll : (dropAll (held.map (guardOf threadId))).script (known threadId) =
    effects threadId held (closing held []) := by
  induction held with
  | nil => rfl
  | cons hold held ih =>
    have newest : (hold.1 == hold.1) = true := beq_self_eq_true hold.1
    rw [List.map_cons, dropAll, Program.script_bind, ih, script_drop]
    simp only [closing, List.map_cons, effects, performs, after, List.find?_cons, List.eraseP_cons, newest]
    rfl

theorem find?_guards (resource : String) : (held.map (guardOf threadId)).find? (·.resource == resource) =
    (held.find? (·.1 == resource)).map (guardOf threadId) := by
  rw [List.find?_map]
  rfl

theorem eraseP_guards (resource : String) : (held.map (guardOf threadId)).eraseP (·.resource == resource) =
    (held.eraseP (·.1 == resource)).map (guardOf threadId) := by
  rw [List.eraseP_map]
  rfl

theorem program_script (command : Command) : (command.program (held.map (guardOf threadId))).script (known threadId) =
    performs threadId held command := by
  cases command with
  | acquire access resource =>
    rw [Command.program, Program.script_bind, script_acquire]
    exact List.append_nil _
  | drop resource =>
    simp only [Command.program, find?_guards, performs]
    cases held.find? (·.1 == resource) with
    | none => rfl
    | some hold =>
      simp only [Option.map_some]
      rw [Program.script_bind, script_drop]
      exact List.append_nil _

theorem program_result (command : Command) : (command.program (held.map (guardOf threadId))).result (known threadId) =
    (after held command).map (guardOf threadId) := by
  cases command with
  | acquire access resource =>
    rw [Command.program, Program.result_bind, result_acquire]
    rfl
  | drop resource =>
    simp only [Command.program, find?_guards, after, ← eraseP_guards]
    cases found : held.find? (·.1 == resource) with
    | some hold =>
      simp only [Option.map_some]
      rw [Program.result_bind]
      rfl
    | none =>
      refine (List.eraseP_of_forall_not fun guard member => ?_).symm
      obtain ⟨hold, isHeld, rfl⟩ := List.mem_map.mp member
      exact List.find?_eq_none.mp found hold isHeld

theorem script_body (threadId : UInt64) (held : Held) (commands : List Command) :
    (body (held.map (guardOf threadId)) commands).script (known threadId) =
      effects threadId held (closing held commands) := by
  induction commands generalizing held with
  | nil => exact script_dropAll
  | cons command commands ih =>
    rw [body, Program.script_bind, program_script, program_result, ih]
    rfl

end Scripts

/-! ## What is held, and what is emitted -/

/-- One effect on the real locks of its thread. -/
def hold (held : Held) : Effect → Held
  | .take resource access => (resource, access) :: held
  | .give resource access => held.erase (resource, access)
  | .currentThreadId | .emit _ => held

def emitted (history : List Effect) : List ProbeEvent :=
  history.filterMap fun
    | .emit event => some event
    | _ => none

theorem emitted_append (first second : List Effect) : emitted (first ++ second) = emitted first ++ emitted second :=
  List.filterMap_append

/-- What is found is the first of its kind, and erased as such. -/
theorem erase_of_find {α : Type*} [BEq α] [LawfulBEq α] {kind : α → Bool} {list : List α} {found : α}
    (isFirst : list.find? kind = some found) : list.erase found = list.eraseP kind := by
  induction list with
  | nil => cases isFirst
  | cons first list ih =>
    rw [List.find?_cons] at isFirst
    rw [List.eraseP_cons]
    cases same : kind first with
    | true =>
      rw [same] at isFirst
      obtain rfl := Option.some.inj isFirst
      rw [List.erase_cons_head]
      rfl
    | false =>
      rw [same] at isFirst
      have other : first ≠ found := by
        rintro rfl
        exact absurd (List.find?_some isFirst) (by simp [same])
      rw [List.erase_cons_tail (by simpa using other), ih isFirst]
      rfl

theorem foldl_performs (threadId : UInt64) (held : Held) (command : Command) :
    (performs threadId held command).foldl hold held = after held command := by
  cases command with
  | acquire access resource => cases access <;> rfl
  | drop resource =>
    simp only [performs, after]
    cases found : held.find? (·.1 == resource) with
    | none => exact (List.eraseP_of_forall_not (List.find?_eq_none.mp found)).symm
    | some first =>
      rw [← erase_of_find found]
      obtain ⟨resource, access⟩ := first
      cases access <;> rfl

theorem foldl_effects (threadId : UInt64) (held : Held) (commands : List Command) :
    (effects threadId held commands).foldl hold held = commands.foldl after held := by
  induction commands generalizing held with
  | nil => rfl
  | cons command commands ih => rw [effects, List.foldl_append, foldl_performs, ih, List.foldl_cons]

/-- At its end a thread holds nothing. -/
theorem foldl_closing (held : Held) (commands : List Command) : (closing held commands).foldl after held = [] := by
  induction commands generalizing held with
  | cons command commands ih => exact ih (after held command)
  | nil =>
    induction held with
    | nil => rfl
    | cons first held ih =>
      have newest : after (first :: held) (.drop first.1) = held := by
        simp only [after, List.eraseP_cons, beq_self_eq_true, cond_true]
      rw [closing, List.map_cons, List.foldl_cons, newest]
      exact ih

theorem emitted_acquires (threadId : UInt64) (hold : String × Access) :
    emitted (acquires threadId hold) = [hold.2.acquired.event threadId hold.1] := by
  obtain ⟨resource, access⟩ := hold
  cases access <;> rfl

theorem emitted_releases (threadId : UInt64) (hold : String × Access) :
    emitted (releases threadId hold) = [hold.2.released.event threadId hold.1] := by
  obtain ⟨resource, access⟩ := hold
  cases access <;> rfl

theorem mem_emitted {history : List Effect} {event : ProbeEvent} : event ∈ emitted history ↔ .emit event ∈ history := by
  simp only [emitted, List.mem_filterMap]
  constructor
  · rintro ⟨effect, member, same⟩
    cases effect with
    | emit other =>
      obtain rfl := Option.some.inj same
      exact member
    | currentThreadId | take resource access | give resource access => cases same
  · exact fun member => ⟨_, member, rfl⟩

/-- A lock event of a thread carries its id. -/
theorem emitted_own {threadId : UInt64} {held : Held} {commands : List Command} {event : ProbeEvent}
    (isEmitted : .emit event ∈ effects threadId held commands) :
    ∃ op, lockOp? event = some op ∧ op.threadId = threadId := by
  induction commands generalizing held with
  | nil => cases isEmitted
  | cons command commands ih =>
    rcases List.mem_append.mp isEmitted with here | later
    · rw [← mem_emitted] at here
      cases command with
      | acquire access resource =>
        rw [performs, emitted_acquires, List.mem_singleton] at here
        subst here
        exact ⟨_, lockOp?_acquired access threadId resource, rfl⟩
      | drop resource =>
        simp only [performs] at here
        cases found : held.find? (·.1 == resource) with
        | none =>
          rw [found] at here
          cases here
        | some first =>
          rw [found, Option.map_some, Option.getD_some, emitted_releases, List.mem_singleton] at here
          subst here
          exact ⟨_, lockOp?_released first.2 threadId first.1, rfl⟩
    · exact ih later

/-! ## Parts of what is performed -/

theorem prefix_append_cases {α : Type*} {history first rest : List α} (isPrefix : history <+: first ++ rest) :
    history <+: first ∨ ∃ later, history = first ++ later ∧ later <+: rest := by
  rcases List.prefix_or_prefix_of_prefix isPrefix (List.prefix_append first rest) with inside | ⟨later, rfl⟩
  · exact .inl inside
  · exact .inr ⟨later, rfl, (List.prefix_append_right_inj first).mp isPrefix⟩

/-- What a thread has acquired of a tracked lock in the trace and not released since, it holds. -/
def Reflects (resource : String) (threadId : UInt64) (events : List ProbeEvent) (held : Held) : Prop :=
  ∀ recorded, Holds threadId events resource recorded →
    ∃ access, (resource, access) ∈ held ∧ access.isHooked = false ∧ mode access = recorded

/-- The lock is never acquired as a model lock. -/
def IsTracked (resource : String) (commands : List Command) : Prop :=
  ∀ access, .acquire access resource ∈ commands → access.isHooked = false

section Reflected

variable {tracked : String} {threadId : UInt64} {events : List ProbeEvent} {held held' : Held}

theorem Reflects.mono (reflects : Reflects tracked threadId events held) (more : held ⊆ held') :
    Reflects tracked threadId events held' := by
  intro recorded member
  obtain ⟨access, isHeld, same⟩ := reflects recorded member
  exact ⟨access, more isHeld, same⟩

/-- An event of another lock. -/
theorem Reflects.foreign {event : ProbeEvent} {op : LockOp} (reflects : Reflects tracked threadId events held)
    (classified : lockOp? event = some op) (other : op.resource ≠ tracked) :
    Reflects tracked threadId (events ++ [event]) held := by
  intro recorded holds
  rw [holds_snoc, classified] at holds
  rcases holds with same | ⟨earlier, -⟩
  · cases same
    exact absurd rfl other
  · exact reflects recorded earlier

theorem Reflects.acquired {resource : String} {access : Access} (reflects : Reflects tracked threadId events held)
    (isTracked : resource = tracked → access.isHooked = false) :
    Reflects tracked threadId (events ++ [access.acquired.event threadId resource]) ((resource, access) :: held) := by
  have more : held ⊆ (resource, access) :: held := List.subset_cons_self ..
  by_cases own : resource = tracked
  · subst own
    intro recorded holds
    rw [holds_snoc, lockOp?_acquired] at holds
    rcases holds with same | ⟨earlier, -⟩
    · cases same
      exact ⟨access, List.mem_cons_self, isTracked rfl, rfl⟩
    · exact reflects.mono more recorded earlier
  · exact (reflects.foreign (lockOp?_acquired access threadId resource) own).mono more

theorem Reflects.released (reflects : Reflects tracked threadId events held) (access : Access) (resource : String) :
    Reflects tracked threadId (events ++ [access.released.event threadId resource])
      (held.eraseP (·.1 == resource)) := by
  intro recorded holds
  rw [holds_snoc, lockOp?_released] at holds
  rcases holds with absurdity | ⟨earlier, unreleased⟩
  · cases absurdity
  · obtain ⟨how, isHeld, same⟩ := reflects recorded earlier
    refine ⟨how, (List.mem_eraseP_of_neg fun found => ?_).mpr isHeld, same⟩
    obtain rfl := beq_iff_eq.mp found
    exact unreleased .exclusive rfl

theorem Reflects.acquires {resource : String} {access : Access} {history : List Effect}
    (reflects : Reflects tracked threadId events held) (isTracked : resource = tracked → access.isHooked = false)
    (isPrefix : history <+: acquires threadId (resource, access)) :
    Reflects tracked threadId (events ++ emitted history) (history.foldl hold held) := by
  have more : held ⊆ (resource, access) :: held := List.subset_cons_self ..
  have acquired := reflects.acquired isTracked
  cases hooked : access.isHooked with
  | false =>
    simp only [LockPrograms.acquires, hooked, Bool.false_eq_true, ↓reduceIte, List.prefix_cons_iff,
      List.prefix_nil] at isPrefix
    obtain rfl | ⟨_, rfl, rfl | ⟨_, rfl, rfl | ⟨_, rfl, rfl⟩⟩⟩ := isPrefix
    · simpa [emitted, hold] using reflects
    · simpa [emitted, hold] using reflects
    · simpa [emitted, hold] using reflects.mono more
    · exact acquired
  | true =>
    -- a model lock is another one
    have other : resource ≠ tracked := fun own => by simp [isTracked own] at hooked
    have foreign := reflects.foreign (lockOp?_acquired access threadId resource) other
    simp only [LockPrograms.acquires, hooked, ↓reduceIte, List.prefix_cons_iff, List.prefix_nil] at isPrefix
    obtain rfl | ⟨_, rfl, rfl | ⟨_, rfl, rfl | ⟨_, rfl, rfl⟩⟩⟩ := isPrefix
    · simpa [emitted, hold] using reflects
    · simpa [emitted, hold] using reflects
    · exact foreign
    · exact foreign.mono more

theorem Reflects.releases {resource : String} {first : String × Access} {history : List Effect}
    (reflects : Reflects tracked threadId events held) (found : held.find? (·.1 == resource) = some first)
    (isPrefix : history <+: releases threadId first) :
    Reflects tracked threadId (events ++ emitted history) (history.foldl hold held) := by
  have isResource : first.1 = resource := by simpa using List.find?_some found
  have released := reflects.released first.2 first.1
  have given : held.erase first = held.eraseP (·.1 == first.1) := by
    rw [isResource]
    exact erase_of_find found
  cases hooked : first.2.isHooked with
  | false =>
    simp only [LockPrograms.releases, hooked, Bool.false_eq_true, ↓reduceIte, List.prefix_cons_iff,
      List.prefix_nil] at isPrefix
    obtain rfl | ⟨_, rfl, rfl | ⟨_, rfl, rfl⟩⟩ := isPrefix
    · simpa [emitted, hold] using reflects
    · exact released.mono List.eraseP_subset
    · change Reflects tracked threadId _ (held.erase first)
      rw [given]
      exact released
  | true =>
    simp only [LockPrograms.releases, hooked, ↓reduceIte, List.prefix_cons_iff, List.prefix_nil] at isPrefix
    obtain rfl | ⟨_, rfl, rfl | ⟨_, rfl, rfl | ⟨_, rfl, rfl⟩⟩⟩ := isPrefix
    · simpa [emitted, hold] using reflects
    · simpa [emitted, hold] using reflects
    · exact released.mono List.eraseP_subset
    · change Reflects tracked threadId _ (held.erase first)
      rw [given]
      exact released

/-- One command, as far as it has come. -/
theorem Reflects.performs {command : Command} {history : List Effect} (reflects : Reflects tracked threadId events held)
    (isTracked : IsTracked tracked [command]) (isPrefix : history <+: performs threadId held command) :
    Reflects tracked threadId (events ++ emitted history) (history.foldl hold held) := by
  cases command with
  | acquire access resource =>
    refine reflects.acquires (fun own => ?_) isPrefix
    exact isTracked access (List.mem_singleton.mpr (by rw [own]))
  | drop resource =>
    simp only [LockPrograms.performs] at isPrefix
    cases found : held.find? (·.1 == resource) with
    | none =>
      rw [found] at isPrefix
      obtain rfl := List.prefix_nil.mp isPrefix
      simpa [emitted] using reflects
    | some first =>
      rw [found] at isPrefix
      exact reflects.releases found isPrefix

/-- All commands, as far as they have come. -/
theorem Reflects.effects {commands : List Command} {history : List Effect}
    (reflects : Reflects tracked threadId events held) (isTracked : IsTracked tracked commands)
    (isPrefix : history <+: effects threadId held commands) :
    Reflects tracked threadId (events ++ emitted history) (history.foldl hold held) := by
  induction commands generalizing held events history with
  | nil =>
    obtain rfl := List.prefix_nil.mp isPrefix
    simpa [emitted] using reflects
  | cons command commands ih =>
    have here : IsTracked tracked [command] :=
      fun access member => isTracked access (List.mem_cons.mpr (.inl (List.mem_singleton.mp member)))
    have later : IsTracked tracked commands := fun access member => isTracked access (List.mem_cons_of_mem _ member)
    rcases prefix_append_cases isPrefix with inside | ⟨rest, rfl, onward⟩
    · exact reflects.performs here inside
    · have done := reflects.performs here (List.prefix_refl (LockPrograms.performs threadId held command))
      rw [foldl_performs] at done
      rw [emitted_append, ← List.append_assoc, List.foldl_append, foldl_performs]
      exact ih done later onward

end Reflected

theorem isTracked_closing {tracked : String} {held : Held} {commands : List Command}
    (isTracked : IsTracked tracked commands) : IsTracked tracked (closing held commands) := by
  induction commands generalizing held with
  | nil =>
    intro access member
    obtain ⟨hold, -, absurdity⟩ := List.mem_map.mp member
    cases absurdity
  | cons command commands ih =>
    intro access member
    rcases List.mem_cons.mp member with rfl | later
    · exact isTracked access List.mem_cons_self
    · exact ih (fun access member => isTracked access (List.mem_cons_of_mem _ member)) access later

/-! ## Runs -/

variable {Thread : Type} [DecidableEq Thread]

theorem scripted (threadId : Thread → UInt64) :
    (lockPrograms threadId).Scripted fun thread => known (threadId thread) := by
  constructor
  · intro thread value operation
    rfl
  · rintro world thread effect choice reply later answered
    cases effect with
    | currentThreadId =>
      cases answered
      rfl
    | take resource access | give resource access | emit event => rfl

/-- Two guards that can be out at the same time. -/
abbrev Compatible (one other : Thread × String × Access) : Prop :=
  one.2.1 = other.2.1 → one.2.2.conflicts other.2.2 = false

omit [DecidableEq Thread] in
instance : Std.Symm (@Compatible Thread) where
  symm one other compatible same := by
    rw [conflicts_comm]
    exact compatible same.symm

/-- The trace is one of these histories, and the real locks are held as they say. -/
structure Tells (threadId : Thread → UInt64) (world : World Thread) (history : Thread → List Effect) : Prop where
  events : ∀ thread, lockEventsOf (threadId thread) world.trace = emitted (history thread)
  foreign : ∀ id, (∀ thread, threadId thread ≠ id) → lockEventsOf id world.trace = []
  holders : ∀ thread resource access, world.holders.count (thread, resource, access) =
    ((history thread).foldl hold []).count (resource, access)
  excludes : world.holders.Pairwise Compatible

section Runs

variable {threadId : Thread → UInt64} {commands : Thread → List Command} {world : World Thread}
  {history : Thread → List Effect} {thread : Thread}

omit [DecidableEq Thread] in
theorem initial_script (thread : Thread) :
    ((initially commands).program thread).script (known (threadId thread)) =
      effects (threadId thread) [] (closing [] (commands thread)) :=
  script_body (threadId thread) [] (commands thread)

/-- An effect that emits nothing. -/
theorem Tells.silent {effect : Effect} {holders : List (Thread × String × Access)}
    (tells : Tells threadId world history) (silent : emitted [effect] = [])
    (counts : ∀ other resource access, holders.count (other, resource, access) =
      ((Function.update history thread (history thread ++ [effect]) other).foldl hold []).count (resource, access))
    (excludes : holders.Pairwise Compatible) :
    Tells threadId { world with holders } (Function.update history thread (history thread ++ [effect])) := by
  refine ⟨fun other => ?_, tells.foreign, counts, excludes⟩
  rcases eq_or_ne other thread with rfl | different
  · rw [Function.update_self, emitted_append, silent, List.append_nil]
    exact tells.events other
  · rw [Function.update_of_ne different]
    exact tells.events other

theorem Tells.emit {event : ProbeEvent} (injective : Function.Injective threadId) (tells : Tells threadId world history)
    (own : ∃ op, lockOp? event = some op ∧ op.threadId = threadId thread) :
    Tells threadId { world with trace := world.trace ++ [event] }
      (Function.update history thread (history thread ++ [.emit event])) := by
  obtain ⟨op, classified, isOwn⟩ := own
  have alone (id : UInt64) : lockEventsOf id [event] = if threadId thread = id then [event] else [] := by
    simp only [lockEventsOf, List.filter_cons, List.filter_nil, classified, Option.any_some, isOwn, beq_iff_eq]
  refine ⟨fun other => ?_, fun id foreign => ?_, fun other resource access => ?_, tells.excludes⟩
  · rw [lockEventsOf_append, tells.events, alone]
    rcases eq_or_ne other thread with rfl | different
    · rw [Function.update_self, emitted_append, if_pos rfl]
      rfl
    · rw [Function.update_of_ne different, if_neg fun same => different (injective same.symm), List.append_nil]
  · rw [lockEventsOf_append, tells.foreign id foreign, alone, if_neg (foreign thread)]
    rfl
  · rcases eq_or_ne other thread with rfl | different
    · rw [Function.update_self, List.foldl_append]
      exact tells.holders other resource access
    · rw [Function.update_of_ne different]
      exact tells.holders other resource access

omit [DecidableEq Thread] in
/-- A holder is in the way of an access, or it does not conflict. -/
theorem isFree_iff {resource : String} {access : Access} : world.isFree resource access = true ↔
    ∀ holder ∈ world.holders, resource = holder.2.1 → access.conflicts holder.2.2 = false := by
  rw [World.isFree, List.all_eq_true]
  refine forall₂_congr fun holder _ => ?_
  simp only [Bool.or_eq_true, bne_iff_ne, Bool.not_eq_true', eq_comm (a := resource)]
  exact Decidable.imp_iff_not_or.symm

theorem Tells.take {resource : String} {access : Access} (tells : Tells threadId world history)
    (free : world.isFree resource access = true) :
    Tells threadId { world with holders := (thread, resource, access) :: world.holders }
      (Function.update history thread (history thread ++ [.take resource access])) := by
  refine tells.silent rfl (fun other held how => ?_) (List.pairwise_cons.mpr ⟨isFree_iff.mp free, tells.excludes⟩)
  rw [List.count_cons, tells.holders]
  rcases eq_or_ne other thread with rfl | different
  · rw [Function.update_self, List.foldl_append]
    simp [hold, List.count_cons]
  · rw [Function.update_of_ne different]
    simp [different.symm]

theorem Tells.give {resource : String} {access : Access} (tells : Tells threadId world history) :
    Tells threadId { world with holders := world.holders.erase (thread, resource, access) }
      (Function.update history thread (history thread ++ [.give resource access])) := by
  refine tells.silent rfl (fun other held how => ?_) (tells.excludes.sublist List.erase_sublist)
  rw [List.count_erase, tells.holders]
  rcases eq_or_ne other thread with rfl | different
  · rw [Function.update_self, List.foldl_append]
    simp [hold, List.count_erase]
  · rw [Function.update_of_ne different]
    simp [different.symm]

/-- **What a run tells.** In every interleaving each thread has performed a part of what its body performs, the captured
lock events of a thread are those of its part, and so are the locks that it holds. -/
theorem tells_of_run (injective : Function.Injective threadId) {final : Config Thread}
    {actions : List (System.Action Thread Empty Unit)}
    (reached : run? (lockPrograms threadId).step (initially commands) actions = some final) :
    ∃ history, Tells threadId final.shared history ∧
      System.Performed (fun thread => known (threadId thread)) (initially commands) final history := by
  refine System.scripts_of_run (scripted threadId) ?_ ?_ reached
  · exact ⟨fun _ => rfl, fun _ _ => rfl, fun _ _ _ => rfl, .nil⟩
  · rintro world history thread effect choice reply later tells - isNext answered
    rw [initial_script] at isNext
    cases effect with
    | currentThreadId =>
      cases answered
      refine tells.silent rfl (fun other resource access => ?_) tells.excludes
      rcases eq_or_ne other thread with rfl | different
      · rw [Function.update_self, List.foldl_append]
        exact tells.holders other resource access
      · rw [Function.update_of_ne different]
        exact tells.holders other resource access
    | take resource access =>
      obtain ⟨free, granted⟩ := Option.ite_none_right_eq_some.mp answered
      cases granted
      exact tells.take free
    | give resource access =>
      cases answered
      exact tells.give
    | emit event =>
      cases answered
      exact tells.emit injective (emitted_own (isNext.subset (List.mem_append_right _ List.mem_cons_self)))

theorem trace_grows {config next : Config Thread} {action : System.Action Thread Empty Unit}
    (stepped : (lockPrograms threadId).step config action = some next) :
    next.shared.trace = config.shared.trace ∨ ∃ event, next.shared.trace = config.shared.trace ++ [event] := by
  obtain ⟨thread, operation, -⟩ | ⟨thread, choice, effect, rest, reply, world, -, -, answered, rfl⟩ :=
    System.step_cases stepped
  · exact operation.elim
  · cases effect with
    | currentThreadId | give resource access =>
      cases answered
      exact .inl rfl
    | take resource access =>
      cases (Option.ite_none_right_eq_some.mp answered).2
      exact .inl rfl
    | emit event =>
      cases answered
      exact .inr ⟨event, rfl⟩

theorem Tells.reflects {config : Config Thread} {tracked : String} (tells : Tells threadId config.shared history)
    (performed : System.Performed (fun thread => known (threadId thread)) (initially commands) config history)
    (thread : Thread) (isTracked : IsTracked tracked (commands thread)) :
    Reflects tracked (threadId thread) (lockEventsOf (threadId thread) config.shared.trace)
      ((history thread).foldl hold []) := by
  have start : Reflects tracked (threadId thread) [] [] := by
    rintro recorded ⟨before, acquiring, after, split, -⟩
    exact absurd split (by simp)
  rw [tells.events]
  apply start.effects (isTracked_closing isTracked)
  rw [← initial_script]
  exact performed.isPrefix thread

/-- **Captured holds of a tracked lock never conflict.** At every point of the capture, in every interleaving: two
threads that have acquired a tracked lock and not released it since have both acquired it for reading. -/
theorem captured_holds_compatible (injective : Function.Injective threadId) {final : Config Thread}
    {actions : List (System.Action Thread Empty Unit)}
    (reached : run? (lockPrograms threadId).step (initially commands) actions = some final)
    {part : List ProbeEvent} (isPart : part <+: final.shared.trace) {resource : String}
    (isTracked : ∀ thread, IsTracked resource (commands thread)) {one other : Thread} (distinct : one ≠ other)
    {first second : HoldMode} (holds : Holds (threadId one) part resource first)
    (holds' : Holds (threadId other) part resource second) : first = .shared ∧ second = .shared := by
  obtain ⟨past, config, before, rfl⟩ :=
    run?_record (fun config : Config Thread => config.shared.trace) (fun _ _ _ => trace_grows) rfl reached isPart
  obtain ⟨history, tells, performed⟩ := tells_of_run injective before
  obtain ⟨access, isHeld, unhooked, rfl⟩ :=
    tells.reflects performed one (isTracked one) first (holds_lockEventsOf holds)
  obtain ⟨access', isHeld', unhooked', rfl⟩ :=
    tells.reflects performed other (isTracked other) second (holds_lockEventsOf holds')
  have holder : (one, resource, access) ∈ config.shared.holders := by
    rw [← List.count_pos_iff, tells.holders]
    exact List.count_pos_iff.mpr isHeld
  have holder' : (other, resource, access') ∈ config.shared.holders := by
    rw [← List.count_pos_iff, tells.holders]
    exact List.count_pos_iff.mpr isHeld'
  have apart : (one, resource, access) ≠ (other, resource, access') := fun same => distinct (congrArg Prod.fst same)
  have compatible : access.conflicts access' = false := tells.excludes.forall holder holder' apart rfl
  cases access <;> cases unhooked <;> cases access' <;> cases unhooked' <;> cases compatible
  exact ⟨rfl, rfl⟩

end Runs

/-- The first thread has id 0 and the second one id 1. -/
def pairId (thread : Bool) : UInt64 := if thread then 1 else 0

theorem pairId_injective : Function.Injective pairId := by decide

/-- Every one of these threads in its turn. -/
def turns (threads : List Bool) : List (System.Action Bool Empty Unit) := threads.map fun thread => .advance thread ()

/-- Where this tape leads, or the start if it cannot be taken. -/
def endOf (commands : Bool → List Command) (actions : List (System.Action Bool Empty Unit)) : Config Bool :=
  (run? (lockPrograms pairId).step (initially commands) actions).getD (initially commands)

/-- Two threads that read one lock, up to where both hold it. -/
def readers (_ : Bool) : List Command := [.acquire .read "a"]

def readersRun : List (System.Action Bool Empty Unit) := turns [false, true, false, true, false, true]

theorem captured_holds_compatible_readers :
    (endOf readers readersRun).shared.trace = [.rwLockReadAcquired 0 "a", .rwLockReadAcquired 1 "a"] ∧
      ∀ first second, Holds 0 (endOf readers readersRun).shared.trace "a" first →
        Holds 1 (endOf readers readersRun).shared.trace "a" second → first = .shared ∧ second = .shared := by
  have reached : run? (lockPrograms pairId).step (initially readers) readersRun = some (endOf readers readersRun) := rfl
  have isTracked : ∀ thread, IsTracked "a" (readers thread) := fun thread access member => by
    cases List.mem_singleton.mp member
    rfl
  have distinct : false ≠ true := nofun
  refine ⟨rfl, fun first second holds holds' => ?_⟩
  exact captured_holds_compatible pairId_injective reached (List.prefix_refl _) isTracked distinct holds holds'

end Laplace.Soundness.LockPrograms
