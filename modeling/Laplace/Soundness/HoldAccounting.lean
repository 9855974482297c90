import Laplace.Machine.Run
import Laplace.Soundness.LockOrder

/-! # What the hold list of a thread accounts for

The scan keeps one entry for a held resource, in the mode of the acquisition that came first, and a release of any
kind drops it. Acquisitions are counted: a thread may hold several read guards of one lock at once, or two locks of
one name in different modes. The list is exact as long as a release ends the last of them, and an exclusive
acquisition does not join shared ones.
-/

namespace Laplace.Soundness.Accounting

open Model

/-- The acquisitions that a guard reports, each with a release of its own kind. -/
inductive LockKind where
  | lock
  | read
  | write
deriving DecidableEq, Repr

namespace LockKind

def acquired (threadId : UInt64) (resource : String) : LockKind → ProbeEvent
  | .lock => .lockAcquired threadId resource
  | .read => .rwLockReadAcquired threadId resource
  | .write => .rwLockWriteAcquired threadId resource

def released (threadId : UInt64) (resource : String) : LockKind → ProbeEvent
  | .lock => .lockReleased threadId resource
  | .read => .rwLockReadReleased threadId resource
  | .write => .rwLockWriteReleased threadId resource

def mode : LockKind → HoldMode
  | .lock | .write => .exclusive
  | .read => .shared

end LockKind

/-- The acquisitions of this kind that no release has ended yet. -/
def unmatched (threadId : UInt64) (resource : String) (events : List ProbeEvent) (kind : LockKind) : ℕ :=
  events.count (kind.acquired threadId resource) - events.count (kind.released threadId resource)

/-- The unmatched acquisitions in exclusive mode. -/
def exclusives (threadId : UInt64) (resource : String) (events : List ProbeEvent) : ℕ :=
  unmatched threadId resource events .lock + unmatched threadId resource events .write

/-- All unmatched acquisitions. -/
def held (threadId : UInt64) (resource : String) (events : List ProbeEvent) : ℕ :=
  exclusives threadId resource events + unmatched threadId resource events .read

/-- A release ends an acquisition of its kind. -/
def Matches (before : List ProbeEvent) (event : ProbeEvent) : Prop :=
  ∀ kind threadId resource, event = LockKind.released threadId resource kind →
    0 < unmatched threadId resource before kind

/-- Every release of the trace ends an acquisition that no release before it has ended. -/
def Matched (events : List ProbeEvent) : Prop := Machine.Throughout Matches events

/-- The hold list shows whether the thread holds the resource, and whether in exclusive mode. -/
def AccountsFor (holds : List Hold) (threadId : UInt64) (resource : String) (events : List ProbeEvent) : Prop :=
  ((∃ mode, (resource, mode) ∈ holds) ↔ 0 < held threadId resource events) ∧
    ((resource, .exclusive) ∈ holds ↔ 0 < exclusives threadId resource events)

/-- The hold lists of all threads account for all resources. -/
def Accounts (holds : UInt64 → List Hold) (events : List ProbeEvent) : Prop :=
  ∀ threadId resource, AccountsFor (holds threadId) threadId resource events

/-- The event does not part what the hold list keeps together: a release ends the last unmatched acquisition of
the resource, and an exclusive acquisition meets none, or an exclusive one. -/
def Undisturbed (before : List ProbeEvent) (event : ProbeEvent) : Prop :=
  (∀ kind threadId resource, event = LockKind.released threadId resource kind → held threadId resource before = 1) ∧
    ∀ kind threadId resource, event = LockKind.acquired threadId resource kind → kind.mode = .exclusive →
      held threadId resource before = 0 ∨ 0 < exclusives threadId resource before

/-! ## Events and counts -/

theorem event_cases (event : ProbeEvent) : lockOp? event = none ∨
    (∃ kind threadId resource, event = LockKind.acquired threadId resource kind) ∨
    ∃ kind threadId resource, event = LockKind.released threadId resource kind := by
  cases event with
  | lockAcquired threadId resource => exact .inr (.inl ⟨.lock, threadId, resource, rfl⟩)
  | rwLockReadAcquired threadId resource => exact .inr (.inl ⟨.read, threadId, resource, rfl⟩)
  | rwLockWriteAcquired threadId resource => exact .inr (.inl ⟨.write, threadId, resource, rfl⟩)
  | lockReleased threadId resource => exact .inr (.inr ⟨.lock, threadId, resource, rfl⟩)
  | rwLockReadReleased threadId resource => exact .inr (.inr ⟨.read, threadId, resource, rfl⟩)
  | rwLockWriteReleased threadId resource => exact .inr (.inr ⟨.write, threadId, resource, rfl⟩)
  | _ => exact .inl rfl

@[simp] theorem lockOp?_acquired (threadId : UInt64) (resource : String) (kind : LockKind) :
    lockOp? (kind.acquired threadId resource) = some ⟨threadId, resource, kind.mode, true⟩ := by
  cases kind <;> rfl

@[simp] theorem lockOp?_released (threadId : UInt64) (resource : String) (kind : LockKind) :
    lockOp? (kind.released threadId resource) = some ⟨threadId, resource, .exclusive, false⟩ := by
  cases kind <;> rfl

theorem acquired_inj {threadId threadId' : UInt64} {resource resource' : String} {kind kind' : LockKind} :
    kind.acquired threadId resource = kind'.acquired threadId' resource' ↔
      threadId = threadId' ∧ resource = resource' ∧ kind = kind' := by
  cases kind <;> cases kind' <;> simp [LockKind.acquired]

theorem released_inj {threadId threadId' : UInt64} {resource resource' : String} {kind kind' : LockKind} :
    kind.released threadId resource = kind'.released threadId' resource' ↔
      threadId = threadId' ∧ resource = resource' ∧ kind = kind' := by
  cases kind <;> cases kind' <;> simp [LockKind.released]

theorem acquired_ne_released (threadId threadId' : UInt64) (resource resource' : String) (kind kind' : LockKind) :
    kind.acquired threadId resource ≠ kind'.released threadId' resource' := by
  cases kind <;> cases kind' <;> exact fun same => nomatch same

/-- In a matched trace no kind has more releases than acquisitions. -/
theorem released_le_acquired {events : List ProbeEvent} (matched : Matched events) (threadId : UInt64)
    (resource : String) (kind : LockKind) :
    events.count (kind.released threadId resource) ≤ events.count (kind.acquired threadId resource) := by
  induction events using List.reverseRecOn with
  | nil => exact Nat.le_refl _
  | append_singleton before event ih =>
    have earlier := ih fun first middle last split => matched first middle (last ++ [event]) (by simp [split])
    simp only [List.count_append, List.count_singleton]
    by_cases release : event = kind.released threadId resource
    · have open' := matched before event [] rfl kind threadId resource release
      simp only [unmatched] at open'
      simp only [release, beq_self_eq_true, ↓reduceIte]
      omega
    · simp only [beq_iff_eq, release, ↓reduceIte]
      omega

/-- What an event does to the unmatched acquisitions of one kind. -/
theorem unmatched_snoc {before : List ProbeEvent} (matched : Matched before) (event : ProbeEvent) (threadId : UInt64)
    (resource : String) (kind : LockKind) :
    unmatched threadId resource (before ++ [event]) kind =
      if event = kind.acquired threadId resource then unmatched threadId resource before kind + 1
      else if event = kind.released threadId resource then unmatched threadId resource before kind - 1
      else unmatched threadId resource before kind := by
  have bounded := released_le_acquired matched threadId resource kind
  simp only [unmatched, List.count_append, List.count_singleton, beq_iff_eq]
  by_cases acquire : event = kind.acquired threadId resource
  · have other : event ≠ kind.released threadId resource := by
      rw [acquire]
      exact acquired_ne_released _ _ _ _ _ _
    simp only [if_pos acquire, if_neg other]
    omega
  · by_cases release : event = kind.released threadId resource
    · simp only [if_neg acquire, if_pos release]
      omega
    · simp only [if_neg acquire, if_neg release]
      omega

/-- An event that is no acquisition and no release of this resource by this thread leaves its counts alone. -/
theorem unmatched_elsewhere {before : List ProbeEvent} (matched : Matched before) {event : ProbeEvent}
    {threadId : UInt64} {resource : String}
    (acquires : ∀ kind, event ≠ LockKind.acquired threadId resource kind)
    (releases : ∀ kind, event ≠ LockKind.released threadId resource kind) (kind : LockKind) :
    unmatched threadId resource (before ++ [event]) kind = unmatched threadId resource before kind := by
  rw [unmatched_snoc matched, if_neg (acquires kind), if_neg (releases kind)]

theorem unmatched_acquired {before : List ProbeEvent} (matched : Matched before) (threadId : UInt64)
    (resource : String) (kind kind' : LockKind) :
    unmatched threadId resource (before ++ [kind.acquired threadId resource]) kind' =
      unmatched threadId resource before kind' + if kind' = kind then 1 else 0 := by
  rw [unmatched_snoc matched]
  by_cases same : kind' = kind
  · rw [if_pos same, if_pos (acquired_inj.mpr ⟨rfl, rfl, same.symm⟩)]
  · have other : kind.acquired threadId resource ≠ kind'.acquired threadId resource := by
      intro equal
      exact same (acquired_inj.mp equal).2.2.symm
    rw [if_neg same, if_neg other, if_neg (acquired_ne_released _ _ _ _ _ _), Nat.add_zero]

theorem unmatched_released {before : List ProbeEvent} (matched : Matched before) (threadId : UInt64)
    (resource : String) (kind kind' : LockKind) :
    unmatched threadId resource (before ++ [kind.released threadId resource]) kind' =
      unmatched threadId resource before kind' - if kind' = kind then 1 else 0 := by
  rw [unmatched_snoc matched, if_neg (acquired_ne_released _ _ _ _ _ _).symm]
  by_cases same : kind' = kind
  · rw [if_pos same, if_pos (released_inj.mpr ⟨rfl, rfl, same.symm⟩)]
  · have other : kind.released threadId resource ≠ kind'.released threadId resource := by
      intro equal
      exact same (released_inj.mp equal).2.2.symm
    rw [if_neg same, if_neg other, Nat.sub_zero]

/-- An acquisition adds one to what is held, and to the exclusive acquisitions if it is one. -/
theorem held_acquired {before : List ProbeEvent} (matched : Matched before) (threadId : UInt64) (resource : String)
    (kind : LockKind) :
    held threadId resource (before ++ [kind.acquired threadId resource]) = held threadId resource before + 1 ∧
    exclusives threadId resource (before ++ [kind.acquired threadId resource]) =
      exclusives threadId resource before + if kind.mode = .exclusive then 1 else 0 := by
  simp only [held, exclusives, unmatched_acquired matched]
  cases kind with
  | lock =>
    simp [LockKind.mode]
    omega
  | read =>
    simp [LockKind.mode]
    omega
  | write =>
    simp [LockKind.mode]
    omega

/-- A release that matches takes one from what is held. -/
theorem held_released {before : List ProbeEvent} (matched : Matched before) {threadId : UInt64} {resource : String}
    {kind : LockKind} (open' : 0 < unmatched threadId resource before kind) :
    held threadId resource (before ++ [kind.released threadId resource]) + 1 = held threadId resource before := by
  simp only [held, exclusives, unmatched_released matched]
  cases kind with
  | lock =>
    simp
    omega
  | read =>
    simp
    omega
  | write =>
    simp
    omega

/-! ## Hold lists -/

theorem exclusives_le_held (threadId : UInt64) (resource : String) (events : List ProbeEvent) :
    exclusives threadId resource events ≤ held threadId resource events := by
  apply Nat.le_add_right

theorem accountsFor_elsewhere {before : List ProbeEvent} (matched : Matched before) {event : ProbeEvent}
    {threadId : UInt64} {resource : String}
    (acquires : ∀ kind, event ≠ LockKind.acquired threadId resource kind)
    (releases : ∀ kind, event ≠ LockKind.released threadId resource kind) (holds : List Hold) :
    AccountsFor holds threadId resource (before ++ [event]) ↔ AccountsFor holds threadId resource before := by
  simp only [AccountsFor, held, exclusives, unmatched_elsewhere matched acquires releases]

/-- An update for one resource shows the others as before. -/
theorem accountsFor_updateHolds {op : LockOp} {resource : String} (other : resource ≠ op.resource)
    (holds : List Hold) (threadId : UInt64) (events : List ProbeEvent) :
    AccountsFor (updateHolds holds op) threadId resource events ↔ AccountsFor holds threadId resource events := by
  have same (mode : HoldMode) : (resource, mode) ∈ updateHolds holds op ↔ (resource, mode) ∈ holds := by
    rw [updateHolds]
    cases op.isAcquire with
    | true =>
      simp only [↓reduceIte]
      split
      · rfl
      · simp [other]
    | false => simp [other]
  simp only [AccountsFor, same]

theorem any_resource_iff (holds : List Hold) (resource : String) :
    holds.any (·.1 == resource) = true ↔ ∃ mode, (resource, mode) ∈ holds := by
  simp only [List.any_eq_true, beq_iff_eq, Prod.exists]
  constructor
  · rintro ⟨_, mode, member, rfl⟩
    exact ⟨mode, member⟩
  · rintro ⟨mode, member⟩
    exact ⟨resource, mode, member, rfl⟩

/-- An acquisition keeps the account exactly if it does not join shared holds in exclusive mode. -/
theorem accountsFor_acquired {before : List ProbeEvent} (matched : Matched before) {holds : List Hold}
    {threadId : UInt64} {resource : String} (accounts : AccountsFor holds threadId resource before)
    (kind : LockKind) :
    AccountsFor (updateHolds holds ⟨threadId, resource, kind.mode, true⟩) threadId resource
        (before ++ [kind.acquired threadId resource]) ↔
      (kind.mode = .exclusive →
        held threadId resource before = 0 ∨ 0 < exclusives threadId resource before) := by
  obtain ⟨count, exclusive⟩ := held_acquired matched threadId resource kind
  have bounded := exclusives_le_held threadId resource before
  have known := any_resource_iff holds resource
  rw [accounts.1] at known
  by_cases holding : 0 < held threadId resource before
  · -- the resource is on the list already, with the mode it came with
    have joined : updateHolds holds ⟨threadId, resource, kind.mode, true⟩ = holds := by
      rw [updateHolds, if_pos rfl, if_pos (known.mpr holding)]
    rw [joined, AccountsFor, accounts.1, accounts.2, count, exclusive]
    by_cases mode : kind.mode = .exclusive
    · rw [if_pos mode, forall_prop_of_true mode]
      omega
    · rw [if_neg mode, forall_prop_of_false mode, iff_true]
      omega
  · have absent (mode : HoldMode) : (resource, mode) ∉ holds := by
      intro member
      exact holding (accounts.1.mp ⟨mode, member⟩)
    have pushed : updateHolds holds ⟨threadId, resource, kind.mode, true⟩ = holds ++ [(resource, kind.mode)] := by
      rw [updateHolds, if_pos rfl, if_neg (known.not.mpr holding)]
    have empty : exclusives threadId resource before = 0 := by omega
    simp only [pushed, AccountsFor, count, exclusive, empty, List.mem_append, absent, false_or, List.mem_singleton,
      Prod.mk.injEq, true_and]
    constructor
    · intro _ _
      omega
    · intro _
      constructor
      · exact ⟨fun _ => by omega, fun _ => ⟨kind.mode, rfl⟩⟩
      · by_cases mode : kind.mode = .exclusive
        · simp [mode]
        · simp [mode, Ne.symm mode]

/-- A release keeps the account exactly if it ends the last acquisition. -/
theorem accountsFor_released {before : List ProbeEvent} (matched : Matched before) (holds : List Hold)
    {threadId : UInt64} {resource : String} {kind : LockKind} (open' : 0 < unmatched threadId resource before kind) :
    AccountsFor (updateHolds holds ⟨threadId, resource, .exclusive, false⟩) threadId resource
        (before ++ [kind.released threadId resource]) ↔ held threadId resource before = 1 := by
  have count := held_released matched open'
  have bounded := exclusives_le_held threadId resource (before ++ [kind.released threadId resource])
  have gone (mode : HoldMode) :
      (resource, mode) ∉ updateHolds holds ⟨threadId, resource, .exclusive, false⟩ := by
    simp [updateHolds]
  simp only [AccountsFor, gone, exists_false, false_iff]
  omega

theorem accountsFor_other {before : List ProbeEvent} (matched : Matched before) {event : ProbeEvent} {op : LockOp}
    (classified : lockOp? event = some op) {threadId : UInt64} {resource : String}
    (other : ¬(op.threadId = threadId ∧ op.resource = resource)) :
    AccountsFor (threadHolds threadId (before ++ [event])) threadId resource (before ++ [event]) ↔
      AccountsFor (threadHolds threadId before) threadId resource before := by
  have acquires (kind) : event ≠ LockKind.acquired threadId resource kind := by
    rintro rfl
    rw [lockOp?_acquired] at classified
    cases classified
    exact other ⟨rfl, rfl⟩
  have releases (kind) : event ≠ LockKind.released threadId resource kind := by
    rintro rfl
    rw [lockOp?_released] at classified
    cases classified
    exact other ⟨rfl, rfl⟩
  rw [accountsFor_elsewhere matched acquires releases, threadHolds_snoc, classified]
  by_cases owner : op.threadId = threadId
  · simp only [if_pos owner]
    apply accountsFor_updateHolds
    intro same
    exact other ⟨owner, same.symm⟩
  · simp only [if_neg owner]

/-- After an account, only the resource of the event is in question. -/
theorem accounts_snoc_own {before : List ProbeEvent} (matched : Matched before)
    (accounts : Accounts (threadHolds · before) before) {event : ProbeEvent} {op : LockOp}
    (classified : lockOp? event = some op) :
    Accounts (threadHolds · (before ++ [event])) (before ++ [event]) ↔
      AccountsFor (updateHolds (threadHolds op.threadId before) op) op.threadId op.resource (before ++ [event]) := by
  have own : threadHolds op.threadId (before ++ [event]) = updateHolds (threadHolds op.threadId before) op := by
    simp only [threadHolds_snoc, classified, ↓reduceIte]
  constructor
  · intro after
    rw [← own]
    exact after op.threadId op.resource
  · intro after threadId resource
    by_cases same : op.threadId = threadId ∧ op.resource = resource
    · obtain ⟨rfl, rfl⟩ := same
      simpa only [own] using after
    · exact (accountsFor_other matched classified same).mpr (accounts threadId resource)

theorem undisturbed_acquired (before : List ProbeEvent) (threadId : UInt64) (resource : String) (kind : LockKind) :
    Undisturbed before (kind.acquired threadId resource) ↔ (kind.mode = .exclusive →
      held threadId resource before = 0 ∨ 0 < exclusives threadId resource before) := by
  constructor
  · intro undisturbed
    exact undisturbed.2 kind threadId resource rfl
  · intro joins
    constructor
    · intro kind' threadId' resource' same
      exact absurd same (acquired_ne_released _ _ _ _ _ _)
    · intro kind' threadId' resource' same
      obtain ⟨rfl, rfl, rfl⟩ := acquired_inj.mp same
      exact joins

theorem undisturbed_released (before : List ProbeEvent) (threadId : UInt64) (resource : String) (kind : LockKind) :
    Undisturbed before (kind.released threadId resource) ↔ held threadId resource before = 1 := by
  constructor
  · intro undisturbed
    exact undisturbed.1 kind threadId resource rfl
  · intro last
    constructor
    · intro kind' threadId' resource' same
      obtain ⟨rfl, rfl, rfl⟩ := released_inj.mp same
      exact last
    · intro kind' threadId' resource' same
      exact absurd same.symm (acquired_ne_released _ _ _ _ _ _)

/-- An event leads from one account to the next exactly if it is undisturbed. -/
theorem accounts_snoc {before : List ProbeEvent} {event : ProbeEvent} (matched : Matched before)
    (follows : Matches before event) (accounts : Accounts (threadHolds · before) before) :
    Accounts (threadHolds · (before ++ [event])) (before ++ [event]) ↔ Undisturbed before event := by
  rcases event_cases event with silent | ⟨kind, threadId, resource, rfl⟩ | ⟨kind, threadId, resource, rfl⟩
  · have acquires (threadId resource kind) : event ≠ LockKind.acquired threadId resource kind := by
      rintro rfl
      simp at silent
    have releases (threadId resource kind) : event ≠ LockKind.released threadId resource kind := by
      rintro rfl
      simp at silent
    apply iff_of_true
    · intro threadId resource
      simp only [threadHolds_snoc, silent]
      exact (accountsFor_elsewhere matched (acquires _ _) (releases _ _) _).mpr (accounts threadId resource)
    · constructor
      · intro kind threadId resource same
        exact absurd same (releases threadId resource kind)
      · intro kind threadId resource same
        exact absurd same (acquires threadId resource kind)
  · rw [accounts_snoc_own matched accounts (lockOp?_acquired threadId resource kind), undisturbed_acquired]
    exact accountsFor_acquired matched (accounts threadId resource) kind
  · rw [accounts_snoc_own matched accounts (lockOp?_released threadId resource kind), undisturbed_released]
    exact accountsFor_released matched _ (follows kind threadId resource rfl)

/-! ## The scan -/

theorem Matched.take {before after : List ProbeEvent} (matched : Matched (before ++ after)) : Matched before := by
  intro first event last split
  apply matched first event (last ++ after)
  rw [split, List.append_assoc, List.cons_append]

theorem accounts_nil : Accounts (threadHolds · []) [] := by
  intro threadId resource
  simp [AccountsFor, threadHolds, threadOps, held, exclusives, unmatched]

/-- After every part of the trace that the scan gets through, its hold lists account for what is held. -/
def Accounted (events : List ProbeEvent) : Prop :=
  ∀ before, before <+: events → ∀ state, before.foldlM scanEvent ScanState.init = .ok state →
    Accounts state.heldByThread before

/-- The scan gets through a trace that it reports no cycle in, with the hold lists of the threads. -/
theorem scanned_iff (events : List ProbeEvent) :
    findLockOrderCycle events = none ↔
      ∃ state, events.foldlM scanEvent ScanState.init = .ok state ∧ state.heldByThread = (threadHolds · events) := by
  have exact' := scan_exact events
  rw [findLockOrderCycle]
  cases scanned : events.foldlM scanEvent ScanState.init with
  | error cycle => simp
  | ok state =>
    rw [scanned] at exact'
    simp only [true_iff]
    exact ⟨state, rfl, funext exact'.1.holds⟩

/-- A trace that the scan gets through has no part that it reports. -/
theorem unreported_of_append {before after : List ProbeEvent} (unreported : findLockOrderCycle (before ++ after) = none) :
    findLockOrderCycle before = none := by
  rw [findLockOrderCycle, List.foldlM_append] at unreported
  rw [findLockOrderCycle]
  cases scanned : before.foldlM scanEvent ScanState.init with
  | error cycle =>
    rw [scanned] at unreported
    exact unreported
  | ok state => rfl

theorem accounted_iff (events : List ProbeEvent) :
    Accounted events ↔ ∀ before, before <+: events → findLockOrderCycle before = none →
      Accounts (threadHolds · before) before := by
  constructor
  · intro accounted before part unreported
    obtain ⟨state, scanned, lists⟩ := (scanned_iff before).mp unreported
    rw [← lists]
    exact accounted before part state scanned
  · intro accounts before part state scanned
    have unreported : findLockOrderCycle before = none := by
      rw [findLockOrderCycle, scanned]
    obtain ⟨state', scanned', lists⟩ := (scanned_iff before).mp unreported
    obtain rfl := Except.ok.inj (scanned.symm.trans scanned')
    rw [lists]
    exact accounts before part unreported

/-- **Where the hold lists are exact.** In a trace whose releases match, the hold lists of the scan show after every
event what each thread holds, and in which mode, exactly if every event that the scan gets past is undisturbed:
a release ends its thread's last unmatched acquisition of the resource, and an exclusive acquisition joins no
shared ones alone. -/
theorem hold_lists_exact (events : List ProbeEvent) (matched : Matched events) :
    Accounted events ↔ ∀ before event, before ++ [event] <+: events →
      findLockOrderCycle (before ++ [event]) = none → Undisturbed before event := by
  rw [accounted_iff]
  constructor
  · rintro accounts before event ⟨after, rfl⟩ unreported
    rw [List.append_assoc] at matched
    have follows := matched before event after rfl
    apply (accounts_snoc matched.take follows _).mp
    · exact accounts _ (List.prefix_append _ _) unreported
    · apply accounts before _ (unreported_of_append unreported)
      exact (List.prefix_append before [event]).trans (List.prefix_append _ _)
  · intro undisturbed before part
    induction before using List.reverseRecOn with
    | nil =>
      intro _
      exact accounts_nil
    | append_singleton before event ih =>
      intro unreported
      obtain ⟨after, rfl⟩ := part
      have whole := undisturbed before event (List.prefix_append _ _) unreported
      rw [List.append_assoc] at matched
      apply (accounts_snoc matched.take (matched before event after rfl) _).mpr whole
      apply ih _ (unreported_of_append unreported)
      exact (List.prefix_append before [event]).trans (List.prefix_append _ _)

/-- A lock and its release. -/
def lockedOnceTrace : List ProbeEvent := [.lockAcquired 0 "a", .lockReleased 0 "a"]

theorem lockedOnceTrace_matched : Matched lockedOnceTrace := by
  apply ((Machine.throughout_nil Matches).append _).append
  · intro kind threadId resource same
    obtain ⟨rfl, rfl, rfl⟩ := (@released_inj _ _ _ _ .lock _).mp same
    decide
  · intro kind threadId resource same
    exact absurd same (acquired_ne_released _ _ _ _ .lock _)

theorem hold_lists_exact_locked : Accounted lockedOnceTrace := by
  apply (hold_lists_exact lockedOnceTrace lockedOnceTrace_matched).mpr
  rintro before event ⟨after, split⟩ -
  rcases before with _ | ⟨first, _ | ⟨second, before⟩⟩
  · obtain rfl : event = .lockAcquired 0 "a" := (List.cons.inj split).1
    apply (undisturbed_acquired [] 0 "a" .lock).mpr
    decide
  · obtain ⟨rfl, rest⟩ := List.cons.inj split
    obtain rfl : event = .lockReleased 0 "a" := (List.cons.inj rest).1
    apply (undisturbed_released [.lockAcquired 0 "a"] 0 "a" .lock).mpr
    decide
  · have length := congrArg List.length split
    simp [lockedOnceTrace] at length

/-- A thread that reads twice and lets go of one guard. -/
def readTwiceTrace : List ProbeEvent :=
  [.rwLockReadAcquired 0 "r", .rwLockReadAcquired 0 "r", .rwLockReadReleased 0 "r"]

/-- With one of its two read guards left, the thread is on record as holding nothing. -/
theorem readTwiceTrace_unaccounted : Matched readTwiceTrace ∧ ¬ Accounted readTwiceTrace := by
  constructor
  · apply (((Machine.throughout_nil Matches).append _).append _).append
    · intro kind threadId resource same
      obtain ⟨rfl, rfl, rfl⟩ := (@released_inj _ _ _ _ .read _).mp same
      decide
    · intro kind threadId resource same
      exact absurd same (acquired_ne_released _ _ _ _ .read _)
    · intro kind threadId resource same
      exact absurd same (acquired_ne_released _ _ _ _ .read _)
  · intro accounted
    have accounts := (accounted_iff _).mp accounted readTwiceTrace (List.prefix_refl _) (by decide)
    obtain ⟨mode, member⟩ := (accounts 0 "r").1.mpr (by decide)
    have nothing : threadHolds 0 readTwiceTrace = [] := by decide
    simp only [nothing, List.not_mem_nil] at member

end Laplace.Soundness.Accounting
