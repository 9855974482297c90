import Laplace.Soundness.LockScripts

/-! # Deadlocks that a capture predicts

Which nested acquisitions a complete capture shows is settled by the bodies of the threads. So the verdict on it does
not depend on the schedule, and a deadlock of two threads that some schedule reaches is reported from every schedule
that ends. For two threads a clean verdict says more: no schedule gets stuck.
-/

namespace Laplace.Soundness.LockPrograms

open Laplace.Machine Laplace.Model Laplace.Model.LockPrograms

/-! ## Nested acquisitions of a body -/

/-- Of these commands one acquires `edge.acquired` where the thread holds `edge.held`. -/
def Nests (held : Held) (commands : List Command) (edge : OrderEdge) : Prop :=
  ∃ before access resource later, commands = before ++ .acquire access resource :: later ∧
    ∃ hold ∈ before.foldl after held, edge = ⟨hold.1, mode hold.2, resource, mode access⟩

theorem nests_nil (held : Held) (edge : OrderEdge) : ¬ Nests held [] edge := by
  rintro ⟨before, access, resource, later, split, -⟩
  exact absurd split (by simp)

theorem nests_cons (held : Held) (command : Command) (commands : List Command) (edge : OrderEdge) :
    Nests held (command :: commands) edge ↔
      (∃ access resource, command = .acquire access resource ∧
        ∃ hold ∈ held, edge = ⟨hold.1, mode hold.2, resource, mode access⟩) ∨
      Nests (after held command) commands edge := by
  constructor
  · rintro ⟨before, access, resource, later, split, nested⟩
    cases before with
    | nil =>
      obtain ⟨rfl, rfl⟩ := List.cons.inj split
      exact .inl ⟨access, resource, rfl, nested⟩
    | cons first before =>
      obtain ⟨rfl, rfl⟩ := List.cons.inj split
      exact .inr ⟨before, access, resource, later, rfl, nested⟩
  · rintro (⟨access, resource, rfl, nested⟩ | ⟨before, access, resource, later, rfl, nested⟩)
    · exact ⟨[], access, resource, commands, rfl, nested⟩
    · exact ⟨command :: before, access, resource, later, rfl, nested⟩

theorem nests_drops (held dropped : Held) (edge : OrderEdge) :
    ¬ Nests held (dropped.map fun hold => .drop hold.1) edge := by
  rintro ⟨before, access, resource, later, split, -⟩
  have member : Command.acquire access resource ∈ dropped.map fun hold => Command.drop hold.1 := by
    rw [split]
    exact List.mem_append_right _ List.mem_cons_self
  obtain ⟨hold, -, absurdity⟩ := List.mem_map.mp member
  cases absurdity

theorem nests_closing (held : Held) (commands : List Command) (edge : OrderEdge) :
    Nests held (closing held commands) edge ↔ Nests held commands edge := by
  induction commands generalizing held with
  | nil => exact iff_of_false (nests_drops held held edge) (nests_nil held edge)
  | cons command commands ih => rw [closing, nests_cons, nests_cons, ih]

/-- The thread acquires a lock that it holds. -/
def reenters : Held → List Command → Bool
  | _, [] => false
  | held, .acquire access resource :: commands =>
      held.any (·.1 == resource) || reenters ((resource, access) :: held) commands
  | held, .drop resource :: commands => reenters (held.eraseP (·.1 == resource)) commands

theorem reenters_cons {held : Held} {command : Command} {commands : List Command}
    (once : reenters held (command :: commands) = false) : reenters (after held command) commands = false ∧
      ∀ access resource, command = .acquire access resource → ∀ hold ∈ held, hold.1 ≠ resource := by
  cases command with
  | acquire access resource =>
    simp only [reenters, Bool.or_eq_false_iff, List.any_eq_false, beq_iff_eq] at once
    refine ⟨once.2, fun access' resource' same => ?_⟩
    cases same
    exact once.1
  | drop resource => exact ⟨once, nofun⟩

theorem reenters_closing (held : Held) (commands : List Command) :
    reenters held (closing held commands) = reenters held commands := by
  induction commands generalizing held with
  | nil =>
    have drops (held dropped : Held) : reenters held (dropped.map fun hold => .drop hold.1) = false := by
      induction dropped generalizing held with
      | nil => rfl
      | cons hold dropped ih => exact ih _
    exact drops held held
  | cons command commands ih =>
    cases command with
    | acquire access resource => exact congrArg (held.any (·.1 == resource) || ·) (ih _)
    | drop resource => exact ih _

/-- Without reentry the two locks of a nested acquisition are two. -/
theorem Nests.distinct {held : Held} {commands : List Command} {edge : OrderEdge} (nests : Nests held commands edge)
    (once : reenters held commands = false) : edge.held ≠ edge.acquired := by
  induction commands generalizing held with
  | nil => exact absurd nests (nests_nil held edge)
  | cons command commands ih =>
    obtain ⟨onward, fresh⟩ := reenters_cons once
    rcases (nests_cons ..).mp nests with ⟨access, resource, rfl, hold, isHeld, rfl⟩ | later
    · exact fresh access resource rfl hold isHeld
    · exact ih later onward

/-- A lock is taken where it is acquired, a model lock behind its event. -/
theorem take_of_acquires {threadId : UInt64} {acquired : String × Access} {history : List Effect} {resource : String}
    {access : Access} (isPrefix : history ++ [.take resource access] <+: acquires threadId acquired) :
    acquired = (resource, access) ∧ (∀ held, history.foldl hold held = held) ∧
      (access.isHooked = true → emitted history = [access.acquired.event threadId resource]) := by
  rw [acquires] at isPrefix
  split at isPrefix
  · rcases history with - | ⟨one, - | ⟨two, - | ⟨three, history⟩⟩⟩ <;>
      simp [List.cons_prefix_cons] at isPrefix
    obtain ⟨rfl, rfl, rfl, rfl⟩ := isPrefix
    exact ⟨rfl, fun _ => rfl, fun _ => rfl⟩
  · next unhooked =>
    rcases history with - | ⟨one, - | ⟨two, - | ⟨three, history⟩⟩⟩ <;>
      simp [List.cons_prefix_cons] at isPrefix
    obtain ⟨rfl, rfl, rfl⟩ := isPrefix
    exact ⟨rfl, fun _ => rfl, fun hooked => absurd hooked unhooked⟩

theorem take_of_performs {threadId : UInt64} {held : Held} {command : Command} {history : List Effect}
    {resource : String} {access : Access}
    (isPrefix : history ++ [.take resource access] <+: performs threadId held command) :
    command = .acquire access resource ∧ history.foldl hold held = held ∧
      (access.isHooked = true → emitted history = emitted (performs threadId held command)) := by
  cases command with
  | acquire access' resource' =>
    obtain ⟨same, unchanged, shown⟩ := take_of_acquires isPrefix
    cases same
    refine ⟨rfl, unchanged held, fun hooked => ?_⟩
    rw [shown hooked, performs, emitted_acquires]
  | drop resource' =>
    have member := isPrefix.subset (List.mem_append_right _ List.mem_cons_self)
    simp only [performs] at member
    cases found : held.find? (·.1 == resource') with
    | none => simp [found] at member
    | some first =>
      rw [found, Option.map_some, Option.getD_some, releases] at member
      split at member <;> simp at member

/-- Where a lock is about to be taken: inside this command, or after it. -/
theorem take_cases {threadId : UInt64} {held : Held} {command : Command} {rest history : List Effect}
    {resource : String} {access : Access}
    (isPrefix : history ++ [.take resource access] <+: performs threadId held command ++ rest) :
    history ++ [.take resource access] <+: performs threadId held command ∨
      ∃ later, history = performs threadId held command ++ later ∧ later ++ [.take resource access] <+: rest := by
  rcases prefix_append_cases isPrefix with inside | ⟨later, split, onward⟩
  · exact .inl inside
  · rcases List.eq_nil_or_concat later with rfl | ⟨later, last, rfl⟩
    · rw [List.append_nil] at split
      exact .inl (split ▸ List.prefix_refl _)
    · rw [List.concat_eq_append] at onward
      rw [List.concat_eq_append, ← List.append_assoc] at split
      obtain ⟨rfl, same⟩ := List.append_inj' split rfl
      obtain rfl := (List.cons.inj same).1
      exact .inr ⟨later, rfl, onward⟩

/-- A thread that is about to take a lock acquires it where it holds what it holds by then. -/
theorem nests_of_take {threadId : UInt64} {held : Held} {commands : List Command} {history : List Effect}
    {resource : String} {access : Access}
    (isPrefix : history ++ [.take resource access] <+: effects threadId held commands)
    {prior : String × Access} (isHeld : prior ∈ history.foldl hold held) :
    Nests held commands ⟨prior.1, mode prior.2, resource, mode access⟩ := by
  induction commands generalizing held history with
  | nil => exact absurd (List.prefix_nil.mp isPrefix) (by simp)
  | cons command commands ih =>
    rw [nests_cons]
    rcases take_cases isPrefix with inside | ⟨later, rfl, onward⟩
    · obtain ⟨rfl, unchanged, -⟩ := take_of_performs inside
      rw [unchanged] at isHeld
      exact .inl ⟨access, resource, rfl, prior, isHeld, rfl⟩
    · rw [List.foldl_append, foldl_performs] at isHeld
      exact .inr (ih onward isHeld)

/-- What a thread is about to take, one of its commands acquires. -/
theorem acquire_of_take {threadId : UInt64} {held : Held} {commands : List Command} {history : List Effect}
    {resource : String} {access : Access}
    (isPrefix : history ++ [.take resource access] <+: effects threadId held commands) :
    .acquire access resource ∈ commands := by
  induction commands generalizing held history with
  | nil => exact absurd (List.prefix_nil.mp isPrefix) (by simp)
  | cons command commands ih =>
    rcases take_cases isPrefix with inside | ⟨later, rfl, onward⟩
    · exact List.mem_cons.mpr (.inl (take_of_performs inside).1.symm)
    · exact List.mem_cons_of_mem _ (ih onward)

theorem acquire_of_closing {held : Held} {commands : List Command} {access : Access} {resource : String}
    (acquires : .acquire access resource ∈ closing held commands) : .acquire access resource ∈ commands := by
  induction commands generalizing held with
  | nil =>
    obtain ⟨hold, -, absurdity⟩ := List.mem_map.mp acquires
    cases absurdity
  | cons command commands ih =>
    rcases List.mem_cons.mp acquires with rfl | later
    · exact List.mem_cons_self
    · exact List.mem_cons_of_mem _ (ih later)

/-! ## Nested acquisitions of a capture -/

/-- The hold list of the verifier has the locks of the thread, in the modes of their acquisitions. -/
def Mirrors (threadId : UInt64) (events : List ProbeEvent) (held : Held) : Prop :=
  ∀ resource recorded, (resource, recorded) ∈ threadHolds threadId events ↔
    ∃ access, (resource, access) ∈ held ∧ mode access = recorded

section Mirrored

variable {threadId : UInt64} {events : List ProbeEvent} {held : Held}

theorem Mirrors.acquired (mirrors : Mirrors threadId events held) (access : Access) {resource : String}
    (fresh : ∀ hold ∈ held, hold.1 ≠ resource) :
    Mirrors threadId (events ++ [access.acquired.event threadId resource]) ((resource, access) :: held) := by
  intro other recorded
  have absent : ¬ (threadHolds threadId events).any (·.1 == resource) = true := by
    rw [List.any_eq_true]
    rintro ⟨⟨prior, recorded⟩, member, same⟩
    obtain ⟨how, isHeld, -⟩ := (mirrors prior recorded).mp member
    exact fresh _ isHeld (beq_iff_eq.mp same)
  rw [threadHolds_snoc, lockOp?_acquired]
  simp only [↓reduceIte, updateHolds, if_neg absent, List.mem_append, List.mem_cons, List.not_mem_nil, or_false,
    mirrors other recorded, Prod.mk.injEq]
  constructor
  · rintro (⟨how, isHeld, same⟩ | ⟨rfl, rfl⟩)
    · exact ⟨how, .inr isHeld, same⟩
    · exact ⟨access, .inl ⟨rfl, rfl⟩, rfl⟩
  · rintro ⟨how, ⟨rfl, rfl⟩ | isHeld, same⟩
    · exact .inr ⟨rfl, same.symm⟩
    · exact .inl ⟨how, isHeld, same⟩

/-- Where no lock is held twice, a drop leaves none of it. -/
theorem mem_eraseP_once (once : (held.map Prod.fst).Nodup) {resource : String} {hold : String × Access} :
    hold ∈ held.eraseP (·.1 == resource) ↔ hold ∈ held ∧ hold.1 ≠ resource := by
  induction held with
  | nil => simp
  | cons first held ih =>
    obtain ⟨absent, once⟩ := List.nodup_cons.mp once
    rw [List.eraseP_cons]
    cases same : first.1 == resource with
    | true =>
      obtain rfl := beq_iff_eq.mp same
      simp only [cond_true, List.mem_cons]
      constructor
      · intro member
        exact ⟨.inr member, fun again => absent (again ▸ List.mem_map_of_mem member)⟩
      · rintro ⟨rfl | member, other⟩
        · exact absurd rfl other
        · exact member
    | false =>
      simp only [cond_false, List.mem_cons, ih once]
      constructor
      · rintro (rfl | ⟨member, other⟩)
        · exact ⟨.inl rfl, by simpa using same⟩
        · exact ⟨.inr member, other⟩
      · rintro ⟨rfl | member, other⟩
        · exact .inl rfl
        · exact .inr ⟨member, other⟩

theorem Mirrors.released (mirrors : Mirrors threadId events held) (once : (held.map Prod.fst).Nodup) (access : Access)
    (resource : String) :
    Mirrors threadId (events ++ [access.released.event threadId resource]) (held.eraseP (·.1 == resource)) := by
  intro other recorded
  rw [threadHolds_snoc, lockOp?_released]
  simp only [↓reduceIte, updateHolds, Bool.false_eq_true, List.mem_filter, bne_iff_ne, mirrors other recorded,
    mem_eraseP_once once]
  tauto

theorem once_after {command : Command} (once : (held.map Prod.fst).Nodup)
    (fresh : ∀ access resource, command = .acquire access resource → ∀ hold ∈ held, hold.1 ≠ resource) :
    ((after held command).map Prod.fst).Nodup := by
  cases command with
  | acquire access resource =>
    refine List.nodup_cons.mpr ⟨fun member => ?_, once⟩
    obtain ⟨hold, isHeld, same⟩ := List.mem_map.mp member
    exact fresh access resource rfl hold isHeld same
  | drop resource => exact once.sublist (List.eraseP_sublist.map Prod.fst)

theorem emitted_drop (threadId : UInt64) (held : Held) (resource : String) :
    (held.find? (·.1 == resource) = none ∧ emitted (performs threadId held (.drop resource)) = []) ∨
    ∃ access : Access,
      emitted (performs threadId held (.drop resource)) = [access.released.event threadId resource] := by
  rw [performs]
  cases found : held.find? (·.1 == resource) with
  | none => exact .inl ⟨rfl, rfl⟩
  | some first =>
    obtain rfl : first.1 = resource := by simpa using List.find?_some found
    exact .inr ⟨first.2, emitted_releases threadId first⟩

theorem Mirrors.performs {command : Command} (mirrors : Mirrors threadId events held)
    (once : (held.map Prod.fst).Nodup)
    (fresh : ∀ access resource, command = .acquire access resource → ∀ hold ∈ held, hold.1 ≠ resource) :
    Mirrors threadId (events ++ emitted (performs threadId held command)) (after held command) := by
  cases command with
  | acquire access resource =>
    rw [LockPrograms.performs, emitted_acquires]
    exact mirrors.acquired access (fresh access resource rfl)
  | drop resource =>
    rcases emitted_drop threadId held resource with ⟨absent, silent⟩ | ⟨access, shown⟩
    · rw [silent, List.append_nil, after, List.eraseP_of_forall_not (List.find?_eq_none.mp absent)]
      exact mirrors
    · rw [shown]
      exact mirrors.released once access resource

/-- One command shows its own nested acquisitions. -/
theorem nestedAcquireBy_performs {command : Command} (mirrors : Mirrors threadId events held)
    (fresh : ∀ access resource, command = .acquire access resource → ∀ hold ∈ held, hold.1 ≠ resource)
    (edge : OrderEdge) :
    NestedAcquireBy threadId (events ++ emitted (performs threadId held command)) edge ↔
      NestedAcquireBy threadId events edge ∨ ∃ access resource, command = .acquire access resource ∧
        ∃ hold ∈ held, edge = ⟨hold.1, mode hold.2, resource, mode access⟩ := by
  cases command with
  | acquire access resource =>
    rw [performs, emitted_acquires, nestedAcquireBy_snoc, lockOp?_acquired]
    refine or_congr_right ?_
    constructor
    · rintro ⟨classified, member, -⟩
      obtain ⟨how, isHeld, same⟩ := (mirrors _ _).mp member
      obtain ⟨prior, recorded, acquired, acquiredMode⟩ := edge
      obtain rfl : mode how = recorded := same
      simp only [Option.some.injEq, LockOp.mk.injEq] at classified
      obtain ⟨-, rfl, rfl, -⟩ := classified
      exact ⟨access, _, rfl, (prior, how), isHeld, rfl⟩
    · rintro ⟨access', resource', same, hold, isHeld, rfl⟩
      cases same
      exact ⟨rfl, (mirrors _ _).mpr ⟨hold.2, isHeld, rfl⟩, fresh access resource rfl hold isHeld⟩
  | drop resource =>
    have silent : ¬ ∃ access resource', Command.drop resource = .acquire access resource' ∧
        ∃ hold ∈ held, edge = ⟨hold.1, mode hold.2, resource', mode access⟩ := by
      rintro ⟨access, resource', absurdity, -⟩
      cases absurdity
    rw [or_iff_left silent]
    rcases emitted_drop threadId held resource with ⟨-, shown⟩ | ⟨access, shown⟩
    · rw [shown, List.append_nil]
    · rw [shown, nestedAcquireBy_snoc, lockOp?_released]
      simp

/-- What a thread does shows the nested acquisitions of its commands. -/
theorem nestedAcquireBy_effects {commands : List Command} (mirrors : Mirrors threadId events held)
    (once : (held.map Prod.fst).Nodup) (single : reenters held commands = false) (edge : OrderEdge) :
    NestedAcquireBy threadId (events ++ emitted (effects threadId held commands)) edge ↔
      NestedAcquireBy threadId events edge ∨ Nests held commands edge := by
  induction commands generalizing held events with
  | nil =>
    rw [effects, emitted, List.filterMap_nil, List.append_nil, or_iff_left (nests_nil held edge)]
  | cons command commands ih =>
    obtain ⟨onward, fresh⟩ := reenters_cons single
    rw [effects, emitted_append, ← List.append_assoc, ih (mirrors.performs once fresh) (once_after once fresh) onward,
      nestedAcquireBy_performs mirrors fresh, nests_cons, or_assoc]

/-- A thread that is about to take a model lock has shown its nested acquisition already. -/
theorem nestedAcquireBy_of_take {commands : List Command} {history : List Effect} {resource : String} {access : Access}
    (mirrors : Mirrors threadId events held) (once : (held.map Prod.fst).Nodup)
    (single : reenters held commands = false) (hooked : access.isHooked = true)
    (isPrefix : history ++ [.take resource access] <+: effects threadId held commands)
    {prior : String × Access} (isHeld : prior ∈ history.foldl hold held) :
    NestedAcquireBy threadId (events ++ emitted history) ⟨prior.1, mode prior.2, resource, mode access⟩ := by
  induction commands generalizing held events history with
  | nil => exact absurd (List.prefix_nil.mp isPrefix) (by simp)
  | cons command commands ih =>
    obtain ⟨onward, fresh⟩ := reenters_cons single
    rcases take_cases isPrefix with inside | ⟨later, rfl, isLater⟩
    · obtain ⟨rfl, unchanged, shown⟩ := take_of_performs inside
      rw [unchanged] at isHeld
      rw [shown hooked, nestedAcquireBy_performs mirrors fresh]
      exact .inr ⟨access, resource, rfl, prior, isHeld, rfl⟩
    · rw [List.foldl_append, foldl_performs] at isHeld
      rw [emitted_append, ← List.append_assoc]
      exact ih (mirrors.performs once fresh) (once_after once fresh) onward isLater isHeld

end Mirrored

theorem mirrors_nil (threadId : UInt64) : Mirrors threadId [] [] :=
  fun resource recorded => by simp [threadHolds, threadOps]

/-- What the whole body of a thread shows. -/
theorem nestedAcquireBy_body (threadId : UInt64) {commands : List Command} (once : reenters [] commands = false)
    (edge : OrderEdge) :
    NestedAcquireBy threadId (emitted (effects threadId [] (closing [] commands))) edge ↔ Nests [] commands edge := by
  have nothing : ¬ NestedAcquireBy threadId [] edge := by
    rintro ⟨before, event, later, split, -⟩
    exact absurd split (by simp)
  have shown := nestedAcquireBy_effects (mirrors_nil threadId) List.nodup_nil ((reenters_closing [] _).trans once) edge
  rw [or_iff_right nothing, nests_closing] at shown
  exact shown

/-! ## Complete runs -/

section Runs

variable {Thread : Type} [DecidableEq Thread] {threadId : Thread → UInt64} {commands : Thread → List Command}
  {history : Thread → List Effect} {config : Config Thread} {actions : List (System.Action Thread Empty Unit)}

/-- A capture shows no other nested acquisitions than those of the commands. -/
theorem nests_of_nestedAcquire (injective : Function.Injective threadId)
    (once : ∀ thread, reenters [] (commands thread) = false)
    (reached : run? (lockPrograms threadId).step (initially commands) actions = some config) {edge : OrderEdge}
    (nested : NestedAcquire config.shared.trace edge) : ∃ thread, Nests [] (commands thread) edge := by
  obtain ⟨history, tells, performed⟩ := tells_of_run injective reached
  obtain ⟨id, nested⟩ := (nestedAcquire_iff_by _ _).mp nested
  rw [← nestedAcquireBy_lockEventsOf] at nested
  by_cases known : ∃ thread, threadId thread = id
  · obtain ⟨thread, rfl⟩ := known
    rw [tells.events] at nested
    obtain ⟨rest, whole⟩ := performed.isPrefix thread
    refine ⟨thread, (nestedAcquireBy_body (threadId thread) (once thread) edge).mp ?_⟩
    rw [← initial_script, ← whole, emitted_append]
    exact NestedAcquireBy.append nested (emitted rest)
  · rw [tells.foreign id fun thread same => known ⟨thread, same⟩] at nested
    obtain ⟨before, event, later, split, -⟩ := nested
    exact absurd split (by simp)

/-- A complete capture shows all of them. -/
theorem nestedAcquire_iff_nests (injective : Function.Injective threadId)
    (once : ∀ thread, reenters [] (commands thread) = false)
    (reached : run? (lockPrograms threadId).step (initially commands) actions = some config)
    (finished : config.Finished) (edge : OrderEdge) :
    NestedAcquire config.shared.trace edge ↔ ∃ thread, Nests [] (commands thread) edge := by
  refine ⟨nests_of_nestedAcquire injective once reached, ?_⟩
  rintro ⟨thread, nests⟩
  obtain ⟨history, tells, performed⟩ := tells_of_run injective reached
  obtain ⟨value, done⟩ := finished thread
  rw [nestedAcquire_iff_by]
  refine ⟨threadId thread, (nestedAcquireBy_lockEventsOf ..).mp ?_⟩
  rw [tells.events, performed.of_done done, initial_script]
  exact (nestedAcquireBy_body (threadId thread) (once thread) edge).mpr nests

/-- Two bodies, or one, have two locks the wrong way round. -/
def ReversedNesting (commands : Thread → List Command) : Prop :=
  ∃ one other first second, Nests [] (commands one) first ∧ Nests [] (commands other) second ∧ Reverses first second

omit [DecidableEq Thread] in
theorem reversedPair_iff {events : List ProbeEvent}
    (shown : ∀ edge, NestedAcquire events edge ↔ ∃ thread, Nests [] (commands thread) edge) :
    ReversedPair events ↔ ReversedNesting commands := by
  simp only [ReversedPair, shown, ReversedNesting]
  constructor
  · rintro ⟨first, second, ⟨one, left⟩, ⟨other, right⟩, pair⟩
    exact ⟨one, other, first, second, left, right, pair⟩
  · rintro ⟨one, other, first, second, left, right, pair⟩
    exact ⟨first, second, ⟨one, left⟩, ⟨other, right⟩, pair⟩

theorem isBug_iff_reversedNesting (injective : Function.Injective threadId)
    (once : ∀ thread, reenters [] (commands thread) = false)
    (reached : run? (lockPrograms threadId).step (initially commands) actions = some config)
    (finished : config.Finished) (targetName : String) (settings : ProbeSessionConfig) :
    (runVerificationFrom config.shared.trace targetName settings).verdict.isBug = true ↔ ReversedNesting commands :=
  (isBug_iff_reversedPair ..).trans (reversedPair_iff (nestedAcquire_iff_nests injective once reached finished))

/-! ## Threads that wait -/

/-- The thread is about to take this lock. -/
def Wants (config : Config Thread) (thread : Thread) (resource : String) (access : Access) : Prop :=
  ∃ rest, config.program thread = .call (.take resource access) rest

/-- The thread is not done. -/
def Unfinished (config : Config Thread) (thread : Thread) : Prop := ∀ value, config.program thread ≠ .done value

/-- One thread waits for a lock that the other one has in its way. -/
def BlockedBy (config : Config Thread) (one other : Thread) : Prop :=
  ∃ resource access how, Wants config one resource access ∧ (other, resource, how) ∈ config.shared.holders ∧
    access.conflicts how = true

theorem Tells.isHeld (tells : Tells threadId config.shared history) {thread : Thread} {held : String} {how : Access}
    (holder : (thread, held, how) ∈ config.shared.holders) : (held, how) ∈ (history thread).foldl hold [] := by
  rw [← List.count_pos_iff, ← tells.holders]
  exact List.count_pos_iff.mpr holder

omit [DecidableEq Thread] in
/-- The lock that a thread waits for comes next in its script. -/
theorem Wants.isNext {thread : Thread} {resource : String} {access : Access}
    (wants : Wants config thread resource access)
    (performed : System.Performed (fun thread => known (threadId thread)) (initially commands) config history) :
    history thread ++ [.take resource access] <+: effects (threadId thread) [] (closing [] (commands thread)) := by
  obtain ⟨rest, running⟩ := wants
  have whole := performed thread
  rw [running, Program.script_call, initial_script] at whole
  rw [← whole, ← List.singleton_append (l := Program.script _ _), ← List.append_assoc]
  exact List.prefix_append ..

/-- What a waiting thread holds, and what it waits for, are nested by its commands. -/
theorem Tells.nests (tells : Tells threadId config.shared history)
    (performed : System.Performed (fun thread => known (threadId thread)) (initially commands) config history)
    {thread : Thread} {resource held : String} {access how : Access} (wants : Wants config thread resource access)
    (holder : (thread, held, how) ∈ config.shared.holders) :
    Nests [] (commands thread) ⟨held, mode how, resource, mode access⟩ :=
  (nests_closing ..).mp (nests_of_take (wants.isNext performed) (tells.isHeld holder))

/-- What it waits for is captured, if it is a model lock. -/
theorem Tells.nestedAcquire (tells : Tells threadId config.shared history)
    (performed : System.Performed (fun thread => known (threadId thread)) (initially commands) config history)
    {thread : Thread} (once : reenters [] (commands thread) = false) {resource held : String} {access how : Access}
    (wants : Wants config thread resource access) (hooked : access.isHooked = true)
    (holder : (thread, held, how) ∈ config.shared.holders) :
    NestedAcquire config.shared.trace ⟨held, mode how, resource, mode access⟩ := by
  refine (nestedAcquire_iff_by ..).mpr ⟨threadId thread, (nestedAcquireBy_lockEventsOf ..).mp ?_⟩
  rw [tells.events]
  exact nestedAcquireBy_of_take (mirrors_nil _) List.nodup_nil ((reenters_closing [] _).trans once) hooked
    (wants.isNext performed) (tells.isHeld holder)

/-- Waits in both directions reverse each other. -/
theorem reverses_of_waits {resource resource' : String} {access access' how how' : Access}
    (conflict : access.conflicts how = true) (conflict' : access'.conflicts how' = true) :
    Reverses ⟨resource', mode how', resource, mode access⟩ ⟨resource, mode how, resource', mode access'⟩ := by
  refine ⟨rfl, rfl, modesConflict_of_conflicts conflict, ?_⟩
  rw [modesConflict_comm]
  exact modesConflict_of_conflicts conflict'

/-- Two threads that wait for each other have their locks the wrong way round. -/
theorem reversedNesting_of_deadlock (injective : Function.Injective threadId)
    (reached : run? (lockPrograms threadId).step (initially commands) actions = some config) {one other : Thread}
    (blocked : BlockedBy config one other) (blocked' : BlockedBy config other one) : ReversedNesting commands := by
  obtain ⟨history, tells, performed⟩ := tells_of_run injective reached
  obtain ⟨resource, access, how, wants, holder, conflict⟩ := blocked
  obtain ⟨resource', access', how', wants', holder', conflict'⟩ := blocked'
  exact ⟨one, other, _, _, tells.nests performed wants holder', tells.nests performed wants' holder,
    reverses_of_waits conflict conflict'⟩

/-- A thread that is stuck waits for another one that is stuck as well. -/
theorem waits_of_stuck (injective : Function.Injective threadId)
    (once : ∀ thread, reenters [] (commands thread) = false)
    (reached : run? (lockPrograms threadId).step (initially commands) actions = some config)
    (stuck : (lockPrograms threadId).Stuck config) {thread : Thread}
    (unfinished : Unfinished config thread) :
    ∃ other, other ≠ thread ∧ BlockedBy config thread other ∧ Unfinished config other := by
  obtain ⟨history, tells, performed⟩ := tells_of_run injective reached
  cases running : config.program thread with
  | done value => exact absurd running (unfinished value)
  | call effect rest =>
    have refused := stuck.refuses running ()
    cases effect with
    | currentThreadId | give resource access | emit event => cases refused
    | take resource access =>
      have taken : ¬ config.shared.isFree resource access = true := by
        intro free
        exact absurd refused (by simp [lockPrograms, World.answer, free])
      rw [isFree_iff] at taken
      push Not at taken
      obtain ⟨⟨other, held, how⟩, holder, same, conflict⟩ := taken
      obtain rfl : resource = held := same
      have wants : Wants config thread resource access := ⟨rest, running⟩
      refine ⟨other, ?_, ⟨resource, access, how, wants, holder, ?_⟩, fun value done => ?_⟩
      · rintro rfl
        exact (tells.nests performed wants holder).distinct (once other) rfl
      · simpa using conflict
      · -- a thread that is done holds nothing
        have nothing : (history other).foldl hold [] = [] := by
          rw [performed.of_done done, initial_script, foldl_effects, foldl_closing]
        have held := tells.holders other resource how
        rw [nothing, List.count_nil, List.count_eq_zero] at held
        exact held holder

/-! ## The results -/

/-- **The verdict is settled by the bodies.** Whatever a schedule has captured, a bug is reported only if two bodies
nest two locks the wrong way round, and if they do, every schedule that ends is reported. -/
theorem verdict_of_bodies (injective : Function.Injective threadId)
    (once : ∀ thread, reenters [] (commands thread) = false)
    (reached : run? (lockPrograms threadId).step (initially commands) actions = some config) (targetName : String)
    (settings : ProbeSessionConfig) :
    ((runVerificationFrom config.shared.trace targetName settings).verdict.isBug = true → ReversedNesting commands) ∧
    (config.Finished → ReversedNesting commands →
      (runVerificationFrom config.shared.trace targetName settings).verdict.isBug = true) := by
  constructor
  · intro bug
    obtain ⟨first, second, left, right, pair⟩ := (isBug_iff_reversedPair ..).mp bug
    obtain ⟨one, left⟩ := nests_of_nestedAcquire injective once reached left
    obtain ⟨other, right⟩ := nests_of_nestedAcquire injective once reached right
    exact ⟨one, other, first, second, left, right, pair⟩
  · intro finished reversed
    exact (isBug_iff_reversedNesting injective once reached finished ..).mpr reversed

/-- **Deadlocks are predicted.** If some schedule leads two threads to where each waits for a lock that the other one
holds, then every schedule that ends is reported, also one in which nobody ever waits. -/
theorem deadlock_predicted (injective : Function.Injective threadId)
    (once : ∀ thread, reenters [] (commands thread) = false)
    (reached : run? (lockPrograms threadId).step (initially commands) actions = some config) {one other : Thread}
    (blocked : BlockedBy config one other) (blocked' : BlockedBy config other one)
    {complete : List (System.Action Thread Empty Unit)} {final : Config Thread}
    (ended : run? (lockPrograms threadId).step (initially commands) complete = some final) (finished : final.Finished)
    (targetName : String) (settings : ProbeSessionConfig) :
    (runVerificationFrom final.shared.trace targetName settings).verdict.isBug = true :=
  (isBug_iff_reversedNesting injective once ended finished ..).mpr
    (reversedNesting_of_deadlock injective reached blocked blocked')

/-- **Deadlocks of model locks are captured.** Since a model lock is reported before it is taken, two threads that wait
for each other's model locks have been reported by then, in a run that cannot end. -/
theorem model_deadlock_captured (injective : Function.Injective threadId)
    (once : ∀ thread, reenters [] (commands thread) = false)
    (hooked : ∀ thread access resource, .acquire access resource ∈ commands thread → access.isHooked = true)
    (reached : run? (lockPrograms threadId).step (initially commands) actions = some config) {one other : Thread}
    (blocked : BlockedBy config one other) (blocked' : BlockedBy config other one) (targetName : String)
    (settings : ProbeSessionConfig) :
    (runVerificationFrom config.shared.trace targetName settings).verdict.isBug = true := by
  obtain ⟨history, tells, performed⟩ := tells_of_run injective reached
  obtain ⟨resource, access, how, wants, holder, conflict⟩ := blocked
  obtain ⟨resource', access', how', wants', holder', conflict'⟩ := blocked'
  have isHooked := hooked one access resource (acquire_of_closing (acquire_of_take (wants.isNext performed)))
  have isHooked' := hooked other access' resource' (acquire_of_closing (acquire_of_take (wants'.isNext performed)))
  have nested := tells.nestedAcquire performed (once one) wants isHooked holder'
  have nested' := tells.nestedAcquire performed (once other) wants' isHooked' holder
  exact (isBug_iff_reversedPair ..).mpr ⟨_, _, nested, nested', reverses_of_waits conflict conflict'⟩

end Runs

/-- Two threads that take two locks in opposite orders. -/
def crossing : Bool → List Command
  | false => [.acquire .lock "a", .acquire .write "b"]
  | true => [.acquire .read "b", .acquire .lock "a"]

/-- One thread after the other. -/
def crossingRun : List (System.Action Bool Empty Unit) :=
  turns (List.replicate 10 false ++ List.replicate 10 true)

/-- Each up to its second lock. -/
def crossingDeadlock : List (System.Action Bool Empty Unit) :=
  turns [false, false, false, true, true, true, false, true]

theorem crossing_once : ∀ thread, reenters [] (crossing thread) = false := by decide

theorem crossing_finished : (endOf crossing crossingRun).Finished :=
  fun thread => by cases thread <;> exact ⟨_, rfl⟩

theorem verdict_of_bodies_crossing :
    (runVerificationFrom (endOf crossing crossingRun).shared.trace "crossing" ⟨500, true, "."⟩).verdict.isBug = true ↔
      ReversedNesting crossing := by
  have reached : run? (lockPrograms pairId).step (initially crossing) crossingRun =
    some (endOf crossing crossingRun) := rfl
  have verdict := verdict_of_bodies pairId_injective crossing_once reached "crossing" ⟨500, true, "."⟩
  exact ⟨verdict.1, verdict.2 crossing_finished⟩

/-- Run one after the other they are reported, since another schedule gets stuck. -/
theorem deadlock_predicted_crossing :
    BlockedBy (endOf crossing crossingDeadlock) false true ∧ BlockedBy (endOf crossing crossingDeadlock) true false ∧
      (runVerificationFrom (endOf crossing crossingRun).shared.trace "crossing" ⟨500, true, "."⟩).verdict.isBug =
        true := by
  have reached : run? (lockPrograms pairId).step (initially crossing) crossingDeadlock =
    some (endOf crossing crossingDeadlock) := rfl
  have ended : run? (lockPrograms pairId).step (initially crossing) crossingRun =
    some (endOf crossing crossingRun) := rfl
  have blocked : BlockedBy (endOf crossing crossingDeadlock) false true :=
    ⟨"b", .write, .read, ⟨_, rfl⟩, List.mem_cons_self, rfl⟩
  have blocked' : BlockedBy (endOf crossing crossingDeadlock) true false :=
    ⟨"a", .lock, .lock, ⟨_, rfl⟩, List.mem_cons_of_mem _ List.mem_cons_self, rfl⟩
  exact ⟨blocked, blocked', deadlock_predicted pairId_injective crossing_once reached blocked blocked' ended
    crossing_finished _ _⟩

/-- Two threads that take two model locks in opposite orders. -/
def modelCrossing : Bool → List Command
  | false => [.acquire .modelLock "model_mutex:1", .acquire .modelWrite "model_mutex:2"]
  | true => [.acquire .modelRead "model_mutex:2", .acquire .modelLock "model_mutex:1"]

/-- Each up to where it waits for its second lock. -/
def modelDeadlock : List (System.Action Bool Empty Unit) :=
  turns [false, false, false, true, true, true, false, false, true, true]

theorem model_deadlock_captured_crossing :
    (runVerificationFrom (endOf modelCrossing modelDeadlock).shared.trace "crossing" ⟨500, true, "."⟩).verdict.isBug =
      true := by
  have once : ∀ thread, reenters [] (modelCrossing thread) = false := by decide
  have hooked : ∀ thread access resource, .acquire access resource ∈ modelCrossing thread → access.isHooked = true := by
    rintro (_ | _) access resource member
    all_goals
      simp only [modelCrossing, List.mem_cons, Command.acquire.injEq, List.not_mem_nil, or_false] at member
      rcases member with ⟨rfl, -⟩ | ⟨rfl, -⟩ <;> rfl
  have reached : run? (lockPrograms pairId).step (initially modelCrossing) modelDeadlock =
    some (endOf modelCrossing modelDeadlock) := rfl
  have blocked : BlockedBy (endOf modelCrossing modelDeadlock) false true :=
    ⟨"model_mutex:2", .modelWrite, .modelRead, ⟨_, rfl⟩, List.mem_cons_self, rfl⟩
  have blocked' : BlockedBy (endOf modelCrossing modelDeadlock) true false :=
    ⟨"model_mutex:1", .modelLock, .modelLock, ⟨_, rfl⟩, List.mem_cons_of_mem _ List.mem_cons_self, rfl⟩
  exact model_deadlock_captured pairId_injective once hooked reached blocked blocked' _ _

/-- **A clean capture of two threads.** If one schedule of two threads that ends has a clean verdict, no schedule of
them gets stuck: every run can be continued to its end. -/
theorem clean_pair_finishes {threadId : Bool → UInt64} {commands : Bool → List Command}
    (injective : Function.Injective threadId) (once : ∀ thread, reenters [] (commands thread) = false)
    {complete : List (System.Action Bool Empty Unit)} {final : Config Bool}
    (ended : run? (lockPrograms threadId).step (initially commands) complete = some final) (finished : final.Finished)
    {targetName : String} {settings : ProbeSessionConfig}
    (clean : (runVerificationFrom final.shared.trace targetName settings).verdict = .clean)
    {past : List (System.Action Bool Empty Unit)} {config : Config Bool}
    (reached : run? (lockPrograms threadId).step (initially commands) past = some config) :
    ∃ rest last, run? (lockPrograms threadId).step (initially commands) (past ++ rest) = some last ∧ last.Finished := by
  refine System.finishes_of_run (scripted threadId) (fun actions config reached stuck => ?_) reached
  by_contra unfinished
  simp only [System.Config.Finished, not_forall, not_exists] at unfinished
  obtain ⟨thread, unfinished⟩ := unfinished
  obtain ⟨other, distinct, blocked, waits⟩ := waits_of_stuck injective once reached stuck unfinished
  obtain ⟨third, distinct', blocked', -⟩ := waits_of_stuck injective once reached stuck waits
  -- the third one is the first one
  obtain rfl : third = thread := by
    cases thread <;> cases other <;> cases third <;> simp at distinct distinct' ⊢
  have bug := (isBug_iff_reversedNesting injective once ended finished targetName settings).mpr
    (reversedNesting_of_deadlock injective reached blocked blocked')
  rw [clean] at bug
  cases bug

/-- Two threads that take two locks in the same order. -/
def nested (_ : Bool) : List Command := [.acquire .lock "a", .acquire .write "b"]

theorem clean_pair_finishes_nested :
    ∃ rest last, run? (lockPrograms pairId).step (initially nested) (turns [false, false, true] ++ rest) = some last ∧
      last.Finished := by
  have reached : run? (lockPrograms pairId).step (initially nested) (turns [false, false, true]) =
    some (endOf nested (turns [false, false, true])) := rfl
  have ended : run? (lockPrograms pairId).step (initially nested) crossingRun = some (endOf nested crossingRun) := rfl
  have finished : (endOf nested crossingRun).Finished := fun thread => by cases thread <;> exact ⟨_, rfl⟩
  have clean : (runVerificationFrom (endOf nested crossingRun).shared.trace "nested" ⟨500, true, "."⟩).verdict =
    .clean := by decide
  exact clean_pair_finishes pairId_injective (by decide) ended finished clean reached

end Laplace.Soundness.LockPrograms
