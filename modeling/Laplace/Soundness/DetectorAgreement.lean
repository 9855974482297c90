import Laplace.Soundness.AbbaExactness
import Laplace.Soundness.ThreadTraces

/-! # The check of specifications and the scan of traces

`detects_abba_deadlock` reads the actions of a specification, the reference verifier the lock events that were
captured. Both keep a list of what a thread holds, by the same rules. So on a capture of a specification they find the
same opposite acquisitions, except that the check looks for them in different threads only and takes a lock for the
opposite of itself.
-/

namespace Laplace.Soundness.Abba

open Model Model.Dsl

/-- The lock events of a thread that does these actions. -/
def lockEvents (threadId : UInt64) (actions : List ThreadAction) : List ProbeEvent :=
  actions.filterMap fun
    | .acquire resource => some (.lockAcquired threadId resource.name)
    | .release resource => some (.lockReleased threadId resource.name)
    | .gate _ | .releaseGate _ | .finish => none

theorem lockEvents_snoc (threadId : UInt64) (actions : List ThreadAction) (action : ThreadAction) :
    lockEvents threadId (actions ++ [action]) = lockEvents threadId actions ++ lockEvents threadId [action] :=
  List.filterMap_append

/-- The hold of a resource that the specification has acquired. -/
def holdOf (resource : ResourceId) : Hold := (resource.name, .exclusive)

theorem name_injective : Function.Injective ResourceId.name := by
  rintro ⟨one⟩ ⟨other⟩ rfl
  rfl

/-- One action on both lists. -/
theorem threadHolds_read (threadId : UInt64) {events : List ProbeEvent} {extraction : Extraction}
    (same : threadHolds threadId events = extraction.held.map holdOf) (action : ThreadAction) :
    threadHolds threadId (events ++ lockEvents threadId [action]) = (extraction.read action).held.map holdOf := by
  cases action with
  | gate id | releaseGate id | finish => simpa [lockEvents, Extraction.read] using same
  | acquire resource =>
    have known : (extraction.held.map holdOf).any (·.1 == resource.name) = decide (resource ∈ extraction.held) := by
      rw [Bool.eq_iff_iff, List.any_map, List.any_eq_true, decide_eq_true_eq]
      constructor
      · rintro ⟨other, member, equal⟩
        rwa [← name_injective (beq_iff_eq.mp equal)]
      · exact fun member => ⟨resource, member, beq_self_eq_true _⟩
    simp only [lockEvents, List.filterMap_cons, List.filterMap_nil, threadHolds_snoc, lockOp?, ↓reduceIte, updateHolds,
      same, known, decide_eq_true_eq, Extraction.read]
    split
    · rfl
    · rw [List.map_append]
      rfl
  | release resource =>
    simp only [lockEvents, List.filterMap_cons, List.filterMap_nil, threadHolds_snoc, lockOp?, ↓reduceIte, updateHolds,
      same, Bool.false_eq_true, Extraction.read, List.filter_map]
    refine congrArg _ (List.filter_congr fun other _ => ?_)
    by_cases equal : other = resource
    · simp [holdOf, equal]
    · have different : other.name ≠ resource.name := fun named => equal (name_injective named)
      simp [holdOf, equal, different]

theorem threadHolds_lockEvents (threadId : UInt64) (actions : List ThreadAction) :
    threadHolds threadId (lockEvents threadId actions) = (actions.foldl Extraction.read {}).held.map holdOf := by
  induction actions using List.reverseRecOn with
  | nil => rfl
  | append_singleton actions action ih =>
    rw [lockEvents_snoc, List.foldl_append]
    exact threadHolds_read threadId ih action

/-- The nested acquisitions that a thread shows are the pairs that are taken from it, of two locks each. -/
theorem nestedAcquireBy_lockEvents (threadId : UInt64) (actions : List ThreadAction) (edge : OrderEdge) :
    NestedAcquireBy threadId (lockEvents threadId actions) edge ↔
      ∃ held acquired, held ≠ acquired ∧ AcquiresHolding actions held acquired ∧
        edge = ⟨held.name, .exclusive, acquired.name, .exclusive⟩ := by
  induction actions using List.reverseRecOn with
  | nil =>
    apply iff_of_false
    · rintro ⟨before, event, after, split, -⟩
      exact absurd split (by simp [lockEvents])
    · rintro ⟨held, acquired, -, ⟨before, after, split, -⟩, -⟩
      exact absurd split (by simp)
  | append_singleton actions action ih =>
    have holds (resource : ResourceId) : holdOf resource ∈ threadHolds threadId (lockEvents threadId actions) ↔
        Holds actions resource := by
      rw [threadHolds_lockEvents, ← (describes_foldl actions).held]
      exact List.mem_map_of_injective fun one other same => name_injective (congrArg Prod.fst same)
    rw [lockEvents_snoc]
    simp only [acquiresHolding_snoc]
    cases action with
    | gate id | releaseGate id | finish => simpa [lockEvents] using ih
    | release resource => simpa [lockEvents, nestedAcquireBy_snoc, lockOp?] using ih
    | acquire resource =>
      have shown : lockEvents threadId [.acquire resource] = [.lockAcquired threadId resource.name] := rfl
      rw [shown, nestedAcquireBy_snoc, ih]
      constructor
      · rintro (⟨held, acquired, distinct, acquires, rfl⟩ | ⟨classified, member, distinct⟩)
        · exact ⟨held, acquired, distinct, .inl acquires, rfl⟩
        · obtain ⟨held, heldMode, acquired, acquiredMode⟩ := edge
          have recorded := member
          rw [threadHolds_lockEvents, List.mem_map] at recorded
          obtain ⟨prior, -, same⟩ := recorded
          obtain ⟨rfl, rfl⟩ := Prod.mk.inj same
          simp only [lockOp?, Option.some.injEq, LockOp.mk.injEq] at classified
          obtain ⟨-, rfl, rfl, -⟩ := classified
          refine ⟨prior, resource, fun same => ?_, .inr ⟨rfl, (holds prior).mp member⟩, rfl⟩
          exact distinct (congrArg ResourceId.name same)
      · rintro ⟨held, acquired, distinct, acquires | ⟨same, isHeld⟩, rfl⟩
        · exact .inl ⟨held, acquired, distinct, acquires, rfl⟩
        · cases same
          exact .inr ⟨rfl, (holds held).mpr isHeld, fun named => distinct (name_injective named)⟩

/-- The lock events of each thread are its actions, in any interleaving, and there are no others. -/
def Captures (spec : HarnessSpec) (ids : Fin spec.threads.length → UInt64) (events : List ProbeEvent) : Prop :=
  (∀ index, lockEventsOf (ids index) events = lockEvents (ids index) spec.threads[index].actions) ∧
    ∀ id, (∀ index, ids index ≠ id) → lockEventsOf id events = []

/-- One thread takes two resources in both orders. -/
def SelfReversal (spec : HarnessSpec) : Prop :=
  ∃ thread ∈ spec.threads, ∃ a b, a ≠ b ∧ AcquiresHolding thread.actions a b ∧ AcquiresHolding thread.actions b a

theorem nestedAcquire_of_captures {spec : HarnessSpec} {ids : Fin spec.threads.length → UInt64}
    {events : List ProbeEvent} (captures : Captures spec ids events) (edge : OrderEdge) :
    NestedAcquire events edge ↔ ∃ index, NestedAcquireBy (ids index)
      (lockEvents (ids index) (spec.threads.get index).actions) edge := by
  rw [nestedAcquire_iff_by]
  constructor
  · rintro ⟨id, nested⟩
    rw [← nestedAcquireBy_lockEventsOf] at nested
    by_cases known : ∃ index, ids index = id
    · obtain ⟨index, rfl⟩ := known
      rw [captures.1] at nested
      exact ⟨index, nested⟩
    · rw [captures.2 id fun index same => known ⟨index, same⟩] at nested
      obtain ⟨before, event, after, split, -⟩ := nested
      exact absurd split (by simp)
  · rintro ⟨index, nested⟩
    refine ⟨ids index, (nestedAcquireBy_lockEventsOf ..).mp ?_⟩
    rw [captures.1]
    exact nested

/-- **The two detectors agree.** Of every capture of a specification, in whatever interleaving, a bug is reported
exactly if two threads take two resources in opposite orders or one thread does so by itself. So where no thread
reverses itself and no two threads each take a resource again, the check of the specification foretells the verdict. -/
theorem detectors_agree (spec : HarnessSpec) (ids : Fin spec.threads.length → UInt64) {events : List ProbeEvent}
    (captures : Captures spec ids events) (targetName : String) (config : ProbeSessionConfig) :
    ((runVerificationFrom events targetName config).verdict.isBug = true ↔ AbbaDeadlock spec ∨ SelfReversal spec) ∧
    (¬ CommonReentry spec → ¬ SelfReversal spec →
      (runVerificationFrom events targetName config).verdict.isBug = spec.detectsAbbaDeadlock) := by
  have verdict : (runVerificationFrom events targetName config).verdict.isBug = true ↔
      AbbaDeadlock spec ∨ SelfReversal spec := by
    rw [isBug_iff_reversedPair]
    constructor
    · rintro ⟨first, second, left, right, held, acquired, -⟩
      obtain ⟨i, left⟩ := (nestedAcquire_of_captures captures first).mp left
      obtain ⟨j, right⟩ := (nestedAcquire_of_captures captures second).mp right
      obtain ⟨a, b, distinct, one, rfl⟩ := (nestedAcquireBy_lockEvents ..).mp left
      obtain ⟨c, d, -, other, rfl⟩ := (nestedAcquireBy_lockEvents ..).mp right
      obtain rfl : c = b := name_injective held
      obtain rfl : d = a := name_injective acquired
      by_cases same : i = j
      · subst same
        exact .inr ⟨_, List.get_mem .., d, c, distinct, one, other⟩
      · refine .inl ⟨d, c, distinct, i, j, _, _, fun equal => same (Fin.ext equal), ?_, ?_, one, other⟩
        · exact List.getElem?_eq_getElem i.2
        · exact List.getElem?_eq_getElem j.2
    · have report (i j : Fin spec.threads.length) {a b : ResourceId} (distinct : a ≠ b)
          (one : AcquiresHolding (spec.threads.get i).actions a b)
          (other : AcquiresHolding (spec.threads.get j).actions b a) : ReversedPair events := by
        refine ⟨⟨a.name, .exclusive, b.name, .exclusive⟩, ⟨b.name, .exclusive, a.name, .exclusive⟩, ?_, ?_, rfl, rfl,
          rfl, rfl⟩
        · exact (nestedAcquire_of_captures captures _).mpr
            ⟨i, (nestedAcquireBy_lockEvents ..).mpr ⟨a, b, distinct, one, rfl⟩⟩
        · exact (nestedAcquire_of_captures captures _).mpr
            ⟨j, (nestedAcquireBy_lockEvents ..).mpr ⟨b, a, distinct.symm, other, rfl⟩⟩
      rintro (⟨a, b, distinct, i, j, one, other, -, first, second, left, right⟩ |
        ⟨thread, member, a, b, distinct, left, right⟩)
      · obtain ⟨below, rfl⟩ := List.getElem?_eq_some_iff.mp first
        obtain ⟨below', rfl⟩ := List.getElem?_eq_some_iff.mp second
        exact report ⟨i, below⟩ ⟨j, below'⟩ distinct left right
      · obtain ⟨i, rfl⟩ := List.get_of_mem member
        exact report i i distinct left right
  refine ⟨verdict, fun noReentry noReversal => ?_⟩
  rw [Bool.eq_iff_iff, verdict, or_iff_left noReversal, detectsAbbaDeadlock_iff]
  constructor
  · rintro ⟨a, b, -, opposite⟩
    exact ⟨a, b, opposite⟩
  · rintro ⟨a, b, opposite⟩
    refine ⟨a, b, fun same => noReentry ⟨a, ?_⟩, opposite⟩
    rwa [← same] at opposite

/-- Two threads that take two resources in opposite orders, past a gate. -/
def crossingSpec : HarnessSpec where
  threads :=
    [⟨[.gate ⟨"start"⟩, .acquire ⟨"a"⟩, .acquire ⟨"b"⟩, .finish]⟩, ⟨[.acquire ⟨"b"⟩, .acquire ⟨"a"⟩, .release ⟨"b"⟩]⟩]

def crossingIds (index : Fin crossingSpec.threads.length) : UInt64 := UInt64.ofNat index

def crossingCapture : List ProbeEvent :=
  [.lockAcquired 1 "b", .lockAcquired 1 "a", .lockReleased 1 "b", .lockAcquired 0 "a", .lockAcquired 0 "b"]

theorem crossingCapture_captures : Captures crossingSpec crossingIds crossingCapture := by
  constructor
  · decide
  · intro id foreign
    have notZero : (0 : UInt64) ≠ id := foreign ⟨0, by decide⟩
    have notOne : (1 : UInt64) ≠ id := foreign ⟨1, by decide⟩
    simp [lockEventsOf, crossingCapture, lockOp?, notZero, notOne]

theorem detectors_agree_crossing :
    (runVerificationFrom crossingCapture "crossing" ⟨500, true, "."⟩).verdict.isBug = true ↔
      AbbaDeadlock crossingSpec ∨ SelfReversal crossingSpec :=
  (detectors_agree crossingSpec crossingIds crossingCapture_captures "crossing" ⟨500, true, "."⟩).1

end Laplace.Soundness.Abba
