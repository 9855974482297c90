import Laplace.Model.Cells

/-! # One line of versions

Stores allocate a version and publish it under the version mutex, so that the snapshots of a cell carry
0, 1, 2, … in the order in which they were published. A snapshot is then known by its version: what a thread
reports is the version of the value it returns, and a cache that compares versions compares values.
-/

namespace Laplace.Soundness.CellLinearity

open Laplace.Machine Laplace.Model.Cells

variable {T Process : Type} {resource : UInt64}

/-- Where a thread stands between two of its effects. -/
inductive Standing (T : Type) where
  | idle
  /-- A snapshot was read and is not reported yet. -/
  | read (snapshot : Versioned T)
  | locked
  | counting (version : UInt64)
  /-- The counter shows a version that is not published yet. -/
  | counted (version : UInt64)
  | stored

/-- Whether the version mutex is held. -/
def Standing.holds : Standing T → Bool
  | .idle | .read _ => false
  | .locked | .counting _ | .counted _ | .stored => true

/-- What a thread has seen of the cell. -/
structure View (T : Type) where
  /-- The snapshots that its loads reported. -/
  loads : List (Versioned T) := []
  seen : List (Versioned T) := []
  standing : Standing T := .idle

namespace View

/-- One value for each version. -/
def Coherent (seen : List (Versioned T)) : Prop :=
  ∀ one ∈ seen, ∀ other ∈ seen, one.version = other.version → one.value = other.value

def permits (view : View T) : Effect (Versioned T) → Prop
  | .load | .lockVersion => view.standing.holds = false
  | .readVersion => view.standing = .locked
  | .unlockVersion _ => view.standing.holds = true ∧ ∀ version, view.standing ≠ .counted version
  | _ => True

/-- A snapshot that was read is reported. -/
def reportLoad (resource version : UInt64) (reported : UInt64) (view : View T) : Option (View T) :=
  match view.standing with
  | .read snapshot =>
      if reported = resource ∧ version = snapshot.version then
        some { view with loads := view.loads ++ [snapshot], standing := .idle }
      else none
  | _ => none

/-- The next version is written into the counter. -/
def count (version : UInt64) (view : View T) : Option (View T) :=
  match view.standing with
  | .counting current =>
      if checkedSucc current = some version then some { view with standing := .counted version } else none
  | _ => none

/-- The version in the counter is published. -/
def publish (snapshot : Versioned T) (view : View T) : Option (View T) :=
  match view.standing with
  | .counted version => if snapshot.version = version then some { view with standing := .stored } else none
  | _ => none

def after (resource : UInt64) (view : View T) : (effect : Effect (Versioned T)) → effect.Reply → Option (View T)
  | .load, snapshot => some { view with seen := view.seen ++ [snapshot], standing := .read snapshot }
  | .lockVersion, _ => some { view with standing := .locked }
  | .readVersion, version => some { view with standing := .counting version }
  | .writeVersion version, _ => view.count version
  | .store snapshot, _ => view.publish snapshot
  | .unlockVersion _, _ => some { view with standing := .idle }
  | .cellHook, _ => some view
  | .report (.cellLoad reported version), _ => view.reportLoad resource version reported
  | .report (.cellStore _ _), _ => some view
  | .report _, _ | .nextResource, _ | .construct _, _ => none

/-- What a thread has of the cell, as far as what it saw is coherent. -/
def Rest (view : View T) (client : Client T) : Prop :=
  view.standing.holds = false ∧
    (Coherent view.seen →
      client.loaded = view.loads.map (·.value) ∧
        ∀ cache ∈ client.caches, { version := cache.cachedVersion, value := cache.cached } ∈ view.seen)

end View

def protocol (resource : UInt64) : Protocol (Effect (Versioned T)) Effect.Reply (View T) where
  permits := View.permits
  possible
    | .cellHook, installed => installed = true
    | _, _ => True
  after := View.after resource

abbrev CellConforms {α : Type} (resource : UInt64) (rest : View T → α → Prop) (view : View T)
    (program : CellM (Versioned T) α) : Prop :=
  program.Conforms (protocol resource) rest view

theorem View.Coherent.before {seen : List (Versioned T)} {snapshot : Versioned T}
    (coherent : View.Coherent (seen ++ [snapshot])) : View.Coherent seen := by
  intro one isSeen other isSeen'
  exact coherent one (List.mem_append_left _ isSeen) other (List.mem_append_left _ isSeen')

section Conformance

variable {view : View T} {client : Client T}

/-- The view after a load: the snapshot is seen and, if it was reported, loaded. -/
def View.reading (view : View T) (snapshot : Versioned T) : View T :=
  { view with seen := view.seen ++ [snapshot], standing := .read snapshot }

def View.reported (view : View T) (snapshot : Versioned T) : View T :=
  { loads := view.loads ++ [snapshot], seen := view.seen ++ [snapshot], standing := .idle }

/-- A load reports the snapshot from which it makes its result. -/
theorem load_conforms {α : Type} {result : Versioned T → α} (free : view.standing.holds = false) :
    CellConforms resource (fun later value => ∃ snapshot, later = view.reported snapshot ∧
        value = result snapshot) view (do
      let snapshot ← perform .load
      withHook (.cellLoad resource snapshot.version)
      return result snapshot) := by
  refine ⟨free, fun snapshot _ => ⟨view.reading snapshot, rfl, trivial, fun hooked isHooked => ?_⟩⟩
  obtain rfl : hooked = true := isHooked
  refine ⟨view.reading snapshot, rfl, trivial, fun _ _ => ⟨view.reported snapshot, ?_, snapshot, rfl, rfl⟩⟩
  exact if_pos ⟨rfl, rfl⟩

/-- A load adds what it returns to what the thread has loaded. -/
theorem Rest_loaded {snapshot : Versioned T} (rest : view.Rest client) :
    (view.reported snapshot).Rest { client with loaded := client.loaded ++ [snapshot.value] } := by
  refine ⟨rfl, fun coherent => ?_⟩
  obtain ⟨loaded, caches⟩ := rest.2 coherent.before
  refine ⟨?_, fun cache member => List.mem_append_left _ (caches cache member)⟩
  rw [View.reported, List.map_append, loaded]
  rfl

/-- The cache after a load holds the value of the snapshot that was just read. -/
theorem Rest_cacheLoaded {snapshot : Versioned T} {index : ℕ} {cache : Cache T} (rest : view.Rest client)
    (isCache : client.caches[index]? = some cache) :
    let fresh := if snapshot.version ≠ cache.cachedVersion then
      { cached := snapshot.value, cachedVersion := snapshot.version } else cache
    (view.reported snapshot).Rest
      { caches := client.caches.set index fresh, loaded := client.loaded ++ [fresh.cached] } := by
  intro fresh
  refine ⟨rfl, fun coherent => ?_⟩
  obtain ⟨loaded, caches⟩ := rest.2 coherent.before
  have isFresh : fresh = { cached := snapshot.value, cachedVersion := snapshot.version } := by
    by_cases same : snapshot.version = cache.cachedVersion
    · have isSeen := caches cache (List.mem_of_getElem? isCache)
      have sameValue : snapshot.value = cache.cached :=
        coherent _ (List.mem_append_right _ (List.mem_singleton_self _)) _ (List.mem_append_left _ isSeen) same
      simp only [fresh, same, ne_eq, not_true_eq_false, if_false, sameValue]
    · simp only [fresh, ne_eq, same, not_false_eq_true, if_true]
  rw [isFresh]
  constructor
  · rw [View.reported, List.map_append, loaded]
    rfl
  · intro other member
    rcases List.mem_or_eq_of_mem_set member with old | rfl
    · exact List.mem_append_left _ (caches other old)
    · exact List.mem_append_right _ (List.mem_singleton_self _)

theorem publishNext_conforms {current : UInt64} {snapshot : UInt64 → Versioned T}
    (versions : ∀ version, (snapshot version).version = version) :
    CellConforms resource (fun later _ => later = { view with standing := .idle })
      { view with standing := .counting current } (publishNext resource snapshot (checkedSucc current)) := by
  cases counted : checkedSucc current with
  | none => exact ⟨⟨rfl, nofun⟩, fun _ _ => ⟨{ view with standing := .idle }, rfl, trivial, nofun⟩⟩
  | some version =>
    refine ⟨trivial, fun _ _ => ⟨{ view with standing := .counted version }, if_pos counted, ?_⟩⟩
    refine ⟨trivial, fun _ _ => ⟨{ view with standing := .stored }, if_pos (versions version), ?_⟩⟩
    refine ⟨trivial, fun hooked isHooked => ⟨{ view with standing := .stored }, rfl, ?_⟩⟩
    obtain rfl : hooked = true := isHooked
    refine ⟨trivial, fun _ _ => ⟨{ view with standing := .stored }, rfl, ?_⟩⟩
    exact ⟨⟨rfl, nofun⟩, fun _ _ => ⟨{ view with standing := .idle }, rfl, rfl⟩⟩

theorem store_conforms {value : T} (free : view.standing.holds = false) :
    CellConforms resource (fun later _ => later = { view with standing := .idle }) view
      (ModelArcSwap.store resource value) := by
  refine ⟨free, fun poisoned _ => ⟨{ view with standing := .locked }, rfl, ?_⟩⟩
  cases poisoned with
  | true => exact ⟨⟨rfl, nofun⟩, fun _ _ => ⟨{ view with standing := .idle }, rfl, trivial, nofun⟩⟩
  | false =>
    refine ⟨rfl, fun current _ => ⟨{ view with standing := .counting current }, rfl, ?_⟩⟩
    exact publishNext_conforms fun _ => rfl

/-- Every operation conforms. -/
theorem start_conforms {operation : Client.Operation T} {program : CellM (Versioned T) (Client T)}
    (started : client.start resource operation = some program) (rest : view.Rest client) :
    CellConforms resource View.Rest view program := by
  cases operation with
  | load =>
    obtain rfl := Option.some.inj started
    refine (load_conforms rest.1).bind fun later value isLoaded => ?_
    obtain ⟨snapshot, rfl, rfl⟩ := isLoaded
    exact Rest_loaded rest
  | loadFull =>
    obtain rfl := Option.some.inj started
    refine (load_conforms rest.1).bind fun later value isLoaded => ?_
    obtain ⟨snapshot, rfl, rfl⟩ := isLoaded
    exact Rest_loaded rest
  | store value =>
    obtain rfl := Option.some.inj started
    refine (store_conforms rest.1).bind fun later _ isIdle => ?_
    rw [isIdle]
    exact ⟨rfl, rest.2⟩
  | cacheNew =>
    obtain rfl := Option.some.inj started
    refine ⟨rest.1, fun snapshot _ => ⟨view.reading snapshot, rfl, rfl, fun coherent => ?_⟩⟩
    obtain ⟨loaded, caches⟩ := rest.2 coherent.before
    refine ⟨loaded, fun cache member => ?_⟩
    rcases List.mem_append.mp member with old | new
    · exact List.mem_append_left _ (caches cache old)
    · obtain rfl := List.mem_singleton.mp new
      exact List.mem_append_right _ (List.mem_singleton_self _)
  | cacheLoad index =>
    obtain ⟨cache, isCache, rfl⟩ := Option.map_eq_some_iff.mp started
    refine ((load_conforms rest.1).bind fun later value isLoaded => ?_).bind fun _ _ loaded => loaded
    obtain ⟨snapshot, rfl, rfl⟩ := isLoaded
    exact Rest_cacheLoaded rest isCache

end Conformance

section Invariant

variable [DecidableEq Process]

/-- The versions that a thread reported by its loads, in order. -/
def reportedLoads (process : Process) (trace : List (Process × Event)) : List UInt64 :=
  trace.filterMap fun entry =>
    match entry.2 with
    | .cellLoad _ version => if entry.1 = process then some version else none
    | _ => none

/-- The snapshots carry their places as versions. -/
def Numbered (published : List (Versioned T)) : Prop :=
  ∀ (place : ℕ) (snapshot : Versioned T), published[place]? = some snapshot → snapshot.version.toNat = place

/-- What a thread saw was published, and the versions that it reports do not decrease. -/
structure Faithful (published : List (Versioned T)) (view : View T) : Prop where
  seen : ∀ snapshot ∈ view.seen, snapshot ∈ published
  loads : ∀ snapshot ∈ view.loads, snapshot ∈ published
  sorted : view.loads.Pairwise fun one other => one.version ≤ other.version
  next : ∀ snapshot, view.standing = .read snapshot →
    snapshot ∈ published ∧ ∀ earlier ∈ view.loads, earlier.version ≤ snapshot.version

/-- The counter shows the current version, or the next one while its thread is about to publish it. -/
def Standing.Agrees (standing : Standing T) (nextVersion : UInt64) (published : ℕ) : Prop :=
  match standing with
  | .counting version => version = nextVersion ∧ nextVersion.toNat + 1 = published
  | .counted version => version = nextVersion ∧ nextVersion.toNat = published
  | _ => nextVersion.toNat + 1 = published

/-- The version mutex has one holder, who alone may know a version that is not published. -/
structure Invariant (world : World (Versioned T) Process) (views : Process → View T) : Prop where
  numbered : Numbered world.published
  held : ∀ process, (views process).standing.holds = true ↔ world.versionHolder = some process
  free : world.versionHolder = none → world.nextVersion.toNat + 1 = world.published.length
  agrees : ∀ process, world.versionHolder = some process →
    (views process).standing.Agrees world.nextVersion world.published.length
  reported : ∀ process, reportedLoads process world.trace = (views process).loads.map (·.version)
  faithful : ∀ process, Faithful world.published (views process)

variable {world : World (Versioned T) Process} {views : Process → View T} {process : Process} {later : View T}

/-- A snapshot that is published is known by its version. -/
theorem Numbered.unique {published : List (Versioned T)} (numbered : Numbered published) {one other : Versioned T}
    (isPublished : one ∈ published) (isPublished' : other ∈ published) (same : one.version = other.version) :
    one = other := by
  obtain ⟨place, here⟩ := List.mem_iff_getElem?.mp isPublished
  obtain ⟨place', here'⟩ := List.mem_iff_getElem?.mp isPublished'
  have samePlace : place = place' := by
    rw [← numbered place one here, ← numbered place' other here', same]
  rw [samePlace, here'] at here
  exact (Option.some.inj here).symm

/-- No published version is above the current one. -/
theorem Numbered.le_last {published : List (Versioned T)} (numbered : Numbered published)
    {snapshot last : Versioned T}
    (isLast : published.getLast? = some last) (isPublished : snapshot ∈ published) :
    snapshot.version ≤ last.version := by
  obtain ⟨place, here⟩ := List.mem_iff_getElem?.mp isPublished
  rw [List.getLast?_eq_getElem?] at isLast
  have bound := (List.getElem?_eq_some_iff.mp here).1
  have atPlace := numbered place snapshot here
  have atEnd := numbered _ last isLast
  rw [UInt64.le_iff_toNat_le]
  omega

theorem Numbered.append {published : List (Versioned T)} (numbered : Numbered published) {snapshot : Versioned T}
    (next : snapshot.version.toNat = published.length) : Numbered (published ++ [snapshot]) := by
  intro place other here
  rcases lt_trichotomy place published.length with before | rfl | behind
  · rw [List.getElem?_append_left before] at here
    exact numbered place other here
  · rw [List.getElem?_concat_length] at here
    obtain rfl := Option.some.inj here
    exact next
  · have outside : (published ++ [snapshot]).length ≤ place := by
      rw [List.length_append, List.length_singleton]
      omega
    rw [List.getElem?_eq_none outside] at here
    cases here

theorem checkedSucc_some {version next : UInt64} (counted : checkedSucc version = some next) :
    next.toNat = version.toNat + 1 := by
  unfold checkedSucc at counted
  split at counted
  · next bound =>
    obtain rfl := Option.some.inj counted
    rw [UInt64.toNat_add]
    exact Nat.mod_eq_of_lt bound
  · cases counted

/-- A move of one thread leaves the others where they are. -/
theorem update_all (property : Process → View T → Prop) (others : ∀ other, property other (views other))
    (moved : property process later) (other : Process) : property other (Function.update views process later other) :=
  (Function.forall_update_iff views property).mpr ⟨moved, fun other _ => others other⟩ other

theorem Faithful.grown {published : List (Versioned T)} {view : View T} (faithful : Faithful published view)
    (snapshot : Versioned T) : Faithful (published ++ [snapshot]) view where
  seen other member := List.mem_append_left _ (faithful.seen other member)
  loads other member := List.mem_append_left _ (faithful.loads other member)
  sorted := faithful.sorted
  next other isRead := (faithful.next other isRead).imp (List.mem_append_left _) id

/-- A thread that stands elsewhere, with nothing read. -/
theorem Faithful.placed {published : List (Versioned T)} {view : View T} (faithful : Faithful published view)
    {standing : Standing T} (nothing : ∀ snapshot, standing ≠ .read snapshot) :
    Faithful published { view with standing } where
  seen := faithful.seen
  loads := faithful.loads
  sorted := faithful.sorted
  next snapshot isRead := absurd isRead (nothing snapshot)

/-- A move inside or outside the critical section, which leaves the world alone. -/
theorem Invariant.moved (holds : Invariant world views) (same : later.standing.holds = (views process).standing.holds)
    (agrees : world.versionHolder = some process → later.standing.Agrees world.nextVersion world.published.length)
    (loads : later.loads = (views process).loads) (faithful : Faithful world.published later) :
    Invariant world (Function.update views process later) where
  numbered := holds.numbered
  held := update_all (fun process view => view.standing.holds = true ↔ world.versionHolder = some process)
    holds.held (same ▸ holds.held process)
  free := holds.free
  agrees := update_all (fun process view => world.versionHolder = some process →
    view.standing.Agrees world.nextVersion world.published.length) holds.agrees agrees
  reported := update_all (fun process view => reportedLoads process world.trace = view.loads.map (·.version))
    holds.reported (loads ▸ holds.reported process)
  faithful := update_all (fun _ view => Faithful world.published view) holds.faithful faithful

theorem Invariant.loaded (holds : Invariant world views) {snapshot : Versioned T}
    (isLast : world.published.getLast? = some snapshot) (outside : (views process).standing.holds = false) :
    Invariant world (Function.update views process ((views process).reading snapshot)) := by
  have isPublished : snapshot ∈ world.published := List.mem_of_getLast? isLast
  refine holds.moved outside.symm (fun isHolder => ?_) rfl ?_
  · rw [← holds.held, outside] at isHolder
    cases isHolder
  · have faithful := holds.faithful process
    refine ⟨fun other member => ?_, faithful.loads, faithful.sorted, fun other isRead => ?_⟩
    · rcases List.mem_append.mp member with old | new
      · exact faithful.seen other old
      · exact List.mem_singleton.mp new ▸ isPublished
    · obtain rfl : snapshot = other := Standing.read.inj isRead
      exact ⟨isPublished, fun earlier member => holds.numbered.le_last isLast (faithful.loads earlier member)⟩

theorem Invariant.locked (holds : Invariant world views) (unlocked : world.versionHolder = none) :
    Invariant { world with versionHolder := some process }
      (Function.update views process { views process with standing := .locked }) where
  numbered := holds.numbered
  held := by
    refine (Function.forall_update_iff views fun other view =>
      view.standing.holds = true ↔ some process = some other).mpr ⟨iff_of_true rfl rfl, fun other different => ?_⟩
    refine iff_of_false ?_ fun same => different (Option.some.inj same).symm
    rw [holds.held, unlocked]
    nofun
  free isNone := nomatch isNone
  agrees other isHolder := by
    obtain rfl := Option.some.inj isHolder
    rw [Function.update_self]
    exact holds.free unlocked
  reported := update_all (fun process view => reportedLoads process world.trace = view.loads.map (·.version))
    holds.reported (holds.reported process)
  faithful := update_all (fun _ view => Faithful world.published view) holds.faithful
    ((holds.faithful process).placed nofun)

/-- The holder moves on inside the critical section, and only it knows how far the counter is. -/
theorem Invariant.advanced (holds : Invariant world views) (isHolder : world.versionHolder = some process)
    {standing : Standing T} {nextVersion : UInt64} {published : List (Versioned T)} (inside : standing.holds = true)
    (numbered : Numbered published) (agrees : standing.Agrees nextVersion published.length)
    (grown : ∀ view, Faithful world.published view → Faithful published view) :
    Invariant { world with nextVersion, published }
      (Function.update views process { views process with standing }) where
  numbered := numbered
  held := update_all (fun process view => view.standing.holds = true ↔ world.versionHolder = some process)
    holds.held (iff_of_true inside isHolder)
  free isNone := nomatch isHolder.symm.trans isNone
  agrees other isHolder' := by
    obtain rfl := Option.some.inj (isHolder.symm.trans isHolder')
    rw [Function.update_self]
    exact agrees
  reported := update_all (fun process view => reportedLoads process world.trace = view.loads.map (·.version))
    holds.reported (holds.reported process)
  faithful := by
    refine update_all (fun _ view => Faithful published view) (fun other => grown _ (holds.faithful other)) ?_
    refine (grown _ (holds.faithful process)).placed fun snapshot isRead => ?_
    rw [isRead] at inside
    cases inside

theorem Invariant.unlocked (holds : Invariant world views) (isHolder : world.versionHolder = some process)
    (uncounted : ∀ version, (views process).standing ≠ .counted version) (panicking : Bool) :
    Invariant { world with versionHolder := none, poisoned := world.poisoned || panicking }
      (Function.update views process { views process with standing := .idle }) where
  numbered := holds.numbered
  held := by
    refine (Function.forall_update_iff views fun other view =>
      view.standing.holds = true ↔ none = some other).mpr ⟨iff_of_false nofun nofun, fun other different => ?_⟩
    refine iff_of_false ?_ nofun
    rw [holds.held, isHolder]
    exact fun same => different (Option.some.inj same).symm
  free _ := by
    have agrees := holds.agrees process isHolder
    cases standing : (views process).standing with
    | counted version => exact absurd standing (uncounted version)
    | counting version =>
      rw [standing] at agrees
      exact agrees.2
    | idle | read snapshot | locked | stored =>
      rw [standing] at agrees
      exact agrees
  agrees _ isNone := nomatch isNone
  reported := update_all (fun process view => reportedLoads process world.trace = view.loads.map (·.version))
    holds.reported (holds.reported process)
  faithful := update_all (fun _ view => Faithful world.published view) holds.faithful
    ((holds.faithful process).placed nofun)

theorem reportedLoads_append (trace : List (Process × Event)) (entry : Process × Event) :
    reportedLoads process (trace ++ [entry]) = reportedLoads process trace ++ reportedLoads process [entry] :=
  List.filterMap_append

theorem Invariant.loadReported (holds : Invariant world views) {snapshot : Versioned T}
    (isRead : (views process).standing = .read snapshot) :
    Invariant { world with trace := world.trace ++ [(process, .cellLoad resource snapshot.version)] }
      (Function.update views process { views process with
        loads := (views process).loads ++ [snapshot], standing := .idle }) where
  numbered := holds.numbered
  held := update_all (fun process view => view.standing.holds = true ↔ world.versionHolder = some process)
    holds.held (by
      rw [← holds.held, isRead]
      exact Iff.rfl)
  free := holds.free
  agrees := by
    refine update_all (fun process view => world.versionHolder = some process →
      view.standing.Agrees world.nextVersion world.published.length) holds.agrees fun isHolder => ?_
    rw [← holds.held, isRead] at isHolder
    cases isHolder
  reported := by
    refine (Function.forall_update_iff views fun process' view =>
      reportedLoads process' (world.trace ++ [(process, .cellLoad resource snapshot.version)]) =
        view.loads.map (·.version)).mpr ⟨?_, fun other different => ?_⟩
    · rw [reportedLoads_append, holds.reported, List.map_append]
      simp [reportedLoads]
    · rw [reportedLoads_append, holds.reported]
      simp [reportedLoads, different.symm]
  faithful := by
    have faithful := holds.faithful process
    obtain ⟨isPublished, highest⟩ := faithful.next snapshot isRead
    refine update_all (fun _ view => Faithful world.published view) holds.faithful ⟨faithful.seen, ?_, ?_, nofun⟩
    · intro other member
      rcases List.mem_append.mp member with old | new
      · exact faithful.loads other old
      · exact List.mem_singleton.mp new ▸ isPublished
    · refine List.pairwise_append.mpr ⟨faithful.sorted, List.pairwise_singleton _ _, fun one old other new => ?_⟩
      obtain rfl := List.mem_singleton.mp new
      exact highest one old

theorem Invariant.storeReported (holds : Invariant world views) (version : UInt64) :
    Invariant { world with trace := world.trace ++ [(process, .cellStore resource version)] } views where
  numbered := holds.numbered
  held := holds.held
  free := holds.free
  agrees := holds.agrees
  reported other := by
    rw [reportedLoads_append, holds.reported]
    simp [reportedLoads]
  faithful := holds.faithful

theorem View.count_cases {view : View T} {version : UInt64} (moved : view.count version = some later) :
    ∃ current, view.standing = .counting current ∧ checkedSucc current = some version ∧
      later = { view with standing := .counted version } := by
  unfold View.count at moved
  split at moved
  · next current isCounting =>
    split at moved
    · next counted => exact ⟨current, isCounting, counted, (Option.some.inj moved).symm⟩
    · cases moved
  · cases moved

theorem View.publish_cases {view : View T} {snapshot : Versioned T} (moved : view.publish snapshot = some later) :
    view.standing = .counted snapshot.version ∧ later = { view with standing := .stored } := by
  unfold View.publish at moved
  split at moved
  · next version isCounted =>
    split at moved
    · next same => exact ⟨same ▸ isCounted, (Option.some.inj moved).symm⟩
    · cases moved
  · cases moved

theorem View.reportLoad_cases {view : View T} {version reported : UInt64}
    (moved : view.reportLoad resource version reported = some later) :
    ∃ snapshot, view.standing = .read snapshot ∧ version = snapshot.version ∧
      later = { view with loads := view.loads ++ [snapshot], standing := .idle } := by
  unfold View.reportLoad at moved
  split at moved
  · next snapshot isRead =>
    split at moved
    · next same => exact ⟨snapshot, isRead, same.2, (Option.some.inj moved).symm⟩
    · cases moved
  · cases moved

/-- Every effect of a thread keeps the invariant. -/
theorem cellSystem_keeps :
    System.Keeps (cellSystem resource) (protocol resource) (Invariant : World (Versioned T) Process → _ → Prop) := by
  intro world views process effect choice reply next holds answered
  change world.answer process effect = some (reply, next) at answered
  cases effect with
  | nextResource => exact ⟨trivial, fun later _ moved => nomatch moved⟩
  | construct snapshot => exact ⟨trivial, fun later _ moved => nomatch moved⟩
  | panic message => cases answered
  | cellHook =>
    obtain ⟨rfl, rfl⟩ := Prod.mk.inj (Option.some.inj answered)
    refine ⟨rfl, fun later _ moved => ?_⟩
    obtain rfl := Option.some.inj moved
    rw [Function.update_eq_self]
    exact holds
  | load =>
    obtain ⟨snapshot, isLast, same⟩ := Option.map_eq_some_iff.mp answered
    obtain ⟨rfl, rfl⟩ := Prod.mk.inj same
    refine ⟨trivial, fun later permitted moved => ?_⟩
    obtain rfl := Option.some.inj moved
    exact holds.loaded isLast permitted
  | lockVersion =>
    simp only [World.answer] at answered
    split at answered
    · next isNone =>
      obtain ⟨rfl, rfl⟩ := Prod.mk.inj (Option.some.inj answered)
      refine ⟨trivial, fun later _ moved => ?_⟩
      obtain rfl := Option.some.inj moved
      exact holds.locked (Option.isNone_iff_eq_none.mp isNone)
    · cases answered
  | readVersion =>
    obtain ⟨rfl, rfl⟩ := Prod.mk.inj (Option.some.inj answered)
    refine ⟨trivial, fun later permitted moved => ?_⟩
    obtain rfl := Option.some.inj moved
    have isLocked : (views process).standing = .locked := permitted
    have isHolder : world.versionHolder = some process := by
      rw [← holds.held, isLocked]
      rfl
    have agrees := holds.agrees process isHolder
    rw [isLocked] at agrees
    exact holds.advanced isHolder rfl holds.numbered ⟨rfl, agrees⟩ fun _ faithful => faithful
  | writeVersion version =>
    obtain ⟨rfl, rfl⟩ := Prod.mk.inj (Option.some.inj answered)
    refine ⟨trivial, fun later _ moved => ?_⟩
    obtain ⟨current, isCounting, counted, rfl⟩ := View.count_cases moved
    have isHolder : world.versionHolder = some process := by
      rw [← holds.held, isCounting]
      rfl
    have agrees := holds.agrees process isHolder
    rw [isCounting] at agrees
    obtain ⟨rfl, current⟩ := agrees
    refine holds.advanced isHolder rfl holds.numbered ⟨rfl, ?_⟩ fun _ faithful => faithful
    rw [checkedSucc_some counted, current]
  | store snapshot =>
    obtain ⟨rfl, rfl⟩ := Prod.mk.inj (Option.some.inj answered)
    refine ⟨trivial, fun later _ moved => ?_⟩
    obtain ⟨isCounted, rfl⟩ := View.publish_cases moved
    have isHolder : world.versionHolder = some process := by
      rw [← holds.held, isCounted]
      rfl
    have agrees := holds.agrees process isHolder
    rw [isCounted] at agrees
    obtain ⟨same, next⟩ := agrees
    refine holds.advanced isHolder rfl (holds.numbered.append (same ▸ next)) ?_ fun _ faithful => faithful.grown snapshot
    change world.nextVersion.toNat + 1 = (world.published ++ [snapshot]).length
    rw [next, List.length_append, List.length_singleton]
  | unlockVersion panicking =>
    obtain ⟨rfl, rfl⟩ := Prod.mk.inj (Option.some.inj answered)
    refine ⟨trivial, fun later permitted moved => ?_⟩
    obtain rfl := Option.some.inj moved
    exact holds.unlocked ((holds.held process).mp permitted.1) permitted.2 panicking
  | report event =>
    obtain ⟨rfl, rfl⟩ := Prod.mk.inj (Option.some.inj answered)
    refine ⟨trivial, fun later _ moved => ?_⟩
    cases event with
    | cellLoad reported version =>
      obtain ⟨snapshot, isRead, rfl, rfl⟩ := View.reportLoad_cases moved
      exact holds.loadReported isRead
    | cellStore reported version =>
      obtain rfl := Option.some.inj moved
      rw [Function.update_eq_self]
      exact holds.storeReported version
    | _ => cases moved

/-- The threads of a cell, before any of them has used it. -/
def unused (world : World (Versioned T) Process) :
    System.Config (Effect (Versioned T)) Effect.Reply Process (Client T) (World (Versioned T) Process) where
  shared := world
  program _ := .done {}

/-- The constructor publishes version zero, and reports no load. -/
theorem new_invariant {value : T} {counter : UInt64} {creator : Process} {world : World (Versioned T) Process}
    (created : (ModelArcSwap.new value).run (fun effect world => world.answer creator effect)
      { nextResource := counter } = (some resource, world)) : Invariant world fun _ => {} := by
  simp only [ModelArcSwap.new, create, perform, Program.perform, Program.call_bind, Program.done_bind, Program.run,
    World.answer] at created
  cases counted : checkedSucc counter with
  | none => simp [counted, Laplace.Model.Cells.panic, Program.run] at created
  | some next =>
    simp [counted, withHook, Program.run, Program.perform] at created
    obtain ⟨rfl, rfl⟩ := created
    refine ⟨fun place snapshot here => ?_, fun _ => iff_of_false ?_ ?_, fun _ => rfl, ?_, fun _ => rfl, fun _ => ?_⟩
    · cases place with
      | zero =>
        obtain rfl := Option.some.inj here
        rfl
      | succ place => cases here
    · exact Bool.false_ne_true
    · intro isHolder
      cases isHolder
    · intro process isHolder
      cases isHolder
    · constructor
      · exact List.forall_mem_nil _
      · exact List.forall_mem_nil _
      · exact List.Pairwise.nil
      · intro snapshot isRead
        cases isRead

/-- **Linear versions.** In every interleaving of stores, loads and cached loads on one cell, the snapshots carry
0, 1, 2, … in the order of their publication; the versions that a thread reports by its loads do not decrease;
and they are, one by one, the versions of the values that its loads returned. -/
theorem cell_versions_linear (value : T) (counter : UInt64) (creator : Process) {world : World (Versioned T) Process}
    (created : (ModelArcSwap.new value).run (fun effect world => world.answer creator effect)
      { nextResource := counter } = (some resource, world))
    {actions : List (System.Action Process (Client.Operation T) Unit)}
    {config : System.Config (Effect (Versioned T)) Effect.Reply Process (Client T) (World (Versioned T) Process)}
    (reached : run? (cellSystem resource).step (unused world) actions = some config) :
    config.shared.published.map (·.version.toNat) = List.range config.shared.published.length ∧
      ∀ process, (reportedLoads process config.shared.trace).Pairwise (· ≤ ·) ∧
        ∀ client, config.program process = .done client →
          List.Forall₂ (fun version value => { version, value } ∈ config.shared.published)
            (reportedLoads process config.shared.trace) client.loaded := by
  have begins : System.Phased (protocol resource) View.Rest Invariant (unused world) fun _ => {} :=
    ⟨new_invariant created, fun _ => ⟨rfl, fun _ => ⟨rfl, nofun⟩⟩⟩
  obtain ⟨views, holds, conform⟩ := System.phases_of_run
    (fun _ _ _ _ _ started rest => start_conforms started rest) cellSystem_keeps begins reached
  refine ⟨?_, fun process => ⟨?_, fun client isIdle => ?_⟩⟩
  · apply List.ext_getElem?
    intro place
    rw [List.getElem?_map]
    by_cases inside : place < config.shared.published.length
    · rw [List.getElem?_range inside, List.getElem?_eq_getElem inside, Option.map_some,
        holds.numbered place _ (List.getElem?_eq_getElem inside)]
    · rw [List.getElem?_eq_none (Nat.le_of_not_lt inside),
        List.getElem?_eq_none (by rw [List.length_range]; exact Nat.le_of_not_lt inside), Option.map_none]
  · rw [holds.reported process, List.pairwise_map]
    exact (holds.faithful process).sorted
  · have faithful := holds.faithful process
    have coherent : View.Coherent (views process).seen := fun one isSeen other isSeen' same =>
      congrArg Versioned.value (holds.numbered.unique (faithful.seen one isSeen) (faithful.seen other isSeen') same)
    have resting : (views process).Rest client := by
      have conforming := conform process
      rw [isIdle] at conforming
      exact conforming
    rw [holds.reported process, (resting.2 coherent).1, List.forall₂_map_left_iff, List.forall₂_map_right_iff,
      List.forall₂_same]
    exact faithful.loads

/-- Two cached loads of one thread around a store of another, which has locked when the first one reports. -/
def storeBetween : List (System.Action Bool (Client.Operation ℕ) Unit) :=
  [.start true .cacheNew, .advance true (), .start true (.cacheLoad 0), .advance true (), .start false (.store 8),
    .advance false (), .advance false (), .advance true (), .advance false (), .advance false (), .advance true (),
    .start true (.cacheLoad 0), .advance true (), .advance true (), .advance true ()]

theorem cell_versions_linear_cached :
    ∃ config, run? (cellSystem 1).step
        (unused ((ModelArcSwap.new 7).run (fun effect world => world.answer false effect) { nextResource := 1 }).2)
        storeBetween = some config ∧ reportedLoads true config.shared.trace = [0, 1] ∧
      (reportedLoads true config.shared.trace).Pairwise (· ≤ ·) := by
  have shown : (run? (cellSystem 1).step
      (unused ((ModelArcSwap.new 7).run (fun effect world => world.answer false effect) { nextResource := 1 }).2)
      storeBetween).map (fun config => reportedLoads true config.shared.trace) = some [0, 1] := by decide
  obtain ⟨config, reached, loads⟩ := Option.map_eq_some_iff.mp shown
  exact ⟨config, reached, loads, ((cell_versions_linear 7 1 false rfl reached).2 true).1⟩

end Invariant

end Laplace.Soundness.CellLinearity
