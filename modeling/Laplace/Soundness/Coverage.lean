import Laplace.Soundness.Counterparts
import Laplace.Soundness.Sites

/-! # Coverage of the watched primitives

Which of the primitives the rewrite knows about it really replaces or marks. `Watched` lists them by
canonical identifiers, with the model path that stands for each, the marker of its family, and the
places and arguments under which the matchers see it. What is canonical is decided by the scopes around
the site, which the function's own table may miss or mistake. Outside these a site passes silently unless
it is marked by what else its path mentions, or another site of the function brings the same marker.
-/

namespace Laplace.Soundness

open Model

structure Watch where
  /-- The model path below `::laplace_sdk::rt`. -/
  counterpart : Option (List Ident)
  /-- The family's marker. -/
  marker : Option Unmodeled
  /-- Where the matchers recognise the primitive. -/
  recognised : Position → Path Unit → Prop

/-- The watched primitives, by canonical identifiers. -/
inductive Watched : List Ident → Watch → Prop where
  | stdSpawn : Watched ["std", "thread", "spawn"]
      ⟨some ["spawn"], none, fun position path => position = .call ∧ path.allPlain = true⟩
  | tokioSpawn : Watched ["tokio", "spawn"] ⟨none, some .tokioSpawn, fun _ path => path.allPlain = true⟩
  | tokioTaskSpawn {name : Ident} (member : name ∈ ["spawn", "spawn_blocking", "spawn_local"]) :
      Watched ["tokio", "task", name] ⟨none, some .tokioSpawn, fun _ path => path.allPlain = true⟩
  | stdLock {ty target : Ident} (member : (ty, target) ∈ [("Mutex", "ModelMutex"), ("RwLock", "ModelRwLock")]) :
      Watched ["std", "sync", ty]
        ⟨some [target], none, fun position path => position = .type ∧ path.plainBelow 2 = true⟩
  | stdLockNew {ty target : Ident} (member : (ty, target) ∈ [("Mutex", "ModelMutex"), ("RwLock", "ModelRwLock")]) :
      Watched ["std", "sync", ty, "new"]
        ⟨some [target, "new"], none, fun position path => position = .call ∧ path.plainExcept 2 = true⟩
  | tokioLock {ty target : Ident} (member : (ty, target) ∈ [("Mutex", "ModelAsyncMutex"),
      ("RwLock", "ModelAsyncRwLock"), ("Semaphore", "ModelAsyncSemaphore"), ("Notify", "ModelAsyncNotify")]) :
      Watched ["tokio", "sync", ty]
        ⟨some [target], none, fun position path => position = .type ∧ path.plainBelow 2 = true⟩
  | tokioLockNew {ty target method : Ident} (member : (ty, target) ∈ [("Mutex", "ModelAsyncMutex"),
      ("RwLock", "ModelAsyncRwLock"), ("Semaphore", "ModelAsyncSemaphore"), ("Notify", "ModelAsyncNotify")])
      (constructor : method ∈ ["new", "const_new"]) : Watched ["tokio", "sync", ty, method]
        ⟨some [target, method], none, fun position path => position = .call ∧ path.plainExcept 2 = true⟩
  | tokioMpsc {name : Ident} (member : name ∈ ["channel", "unbounded_channel"]) :
      Watched ["tokio", "sync", "mpsc", name] ⟨some ["mpsc", name], some .channel, fun _ _ => True⟩
  | tokioChannel {module : Ident} (member : module ∈ ["oneshot", "watch", "broadcast"]) :
      Watched ["tokio", "sync", module, "channel"]
        ⟨some [module, "channel"], some .channel, fun position path => position = .call ∧ path.plainBelow 3 = true⟩
  | timeFn {name : Ident} (member : name ∈ ["sleep", "timeout", "interval"]) : Watched ["tokio", "time", name]
      ⟨some ["time", name], some .tokioTime, fun position path => position = .call ∧ path.allPlain = true⟩
  | condvar : Watched ["std", "sync", "Condvar"] ⟨none, some .condvar, fun _ _ => True⟩
  | stdAtomic (name : Ident) (rest : List Ident) : Watched ("std" :: "sync" :: "atomic" :: name :: rest)
      ⟨none, some .atomic, fun _ _ => "Condvar" ∉ name :: rest ∧ "mpsc" ∉ name :: rest⟩
  | stdMpsc (name : Ident) (rest : List Ident) : Watched ("std" :: "sync" :: "mpsc" :: name :: rest)
      ⟨none, some .channel, fun _ _ => "Condvar" ∉ name :: rest⟩
  /-- The primitives the `TOKIO_TIME` marker documents. -/
  | tokioTime {name : Ident} (member : name ∈ ["Instant", "sleep_until", "interval_at", "timeout_at", "pause",
      "advance", "resume", "MissedTickBehavior"]) : Watched ["tokio", "time", name]
        ⟨none, some .tokioTime, fun _ path => name ≠ "MissedTickBehavior" ∧ path.plainBelow 2 = true⟩

/-- The hook replaces the path by the counterpart, or records the marker. -/
def Watch.Meets (watch : Watch) (treated : Outcome Unit) : Prop :=
  (∃ target rewritten, watch.counterpart = some target ∧ treated = .replaced rewritten ∧
    rewritten.idents = rtIdents target) ∨
  ∃ primitive, watch.marker = some primitive ∧ treated = .flagged primitive

/-! ## Evaluating the matchers

The identifiers of a watched path are known, so the matcher chain evaluates once it is known which
segments carry arguments. -/

section Evaluation

attribute [local simp] Watch.Meets outcome callOutcome typeOutcome isTokioSpawnPath isSupportedSpawnPath
  isUnmodeledTokioSpawnPath Path.isPlain rtIdents rewriteStdSyncConstructorPath
  rewriteTokioSyncConstructorPath rewriteConstructorPath_eq rewriteStdSyncTypePath rewriteTokioSyncTypePath
  rewriteTokioTimeTypePath rewriteTypePath_eq rewriteTokioSyncChannelConstructorPath
  rewriteTokioSyncChannelTypePath rewriteChannelPath_eq rewriteTokioTimeFnPath_eq timeFnTargetFor
  timeTypeTargetFor modelTargetFor tokioModelTargetFor tokioChannelFnTargetFor tokioChannelTypeTargetFor
  Outcome.orElse Outcome.ofClass classifyUnmodeled classifyTokioTimeUnmodeled_eq classifyArcSwapUnmodeled_eq
  isKnownAtomicType

theorem Position.call_or_type {position : Position} (place : position ≠ .macroName) :
    position = .call ∨ position = .type := by
  cases position with
  | call => exact .inl rfl
  | type => exact .inr rfl
  | macroName => exact absurd rfl place

attribute [local simp] rtPath_idents modelPath channelPath PathSegment.plain

/-- A hook meets a watched primitive exactly where the matchers recognise it. -/
theorem Watched.meets_iff {path : Path Unit} {watch : Watch} (watched : Watched path.idents watch)
    {position : Position} (place : position ≠ .macroName) :
    watch.Meets (outcome {} position path) ↔ watch.recognised position path := by
  generalize named : path.idents = idents at watched
  cases watched with
  | stdSpawn =>
    rcases Position.call_or_type place with rfl | rfl <;> cases plain : path.allPlain <;> simp [named, plain]
  | tokioSpawn =>
    rcases Position.call_or_type place with rfl | rfl <;> cases plain : path.allPlain <;> simp [named, plain]
  | tokioTaskSpawn member =>
    simp only [List.mem_cons, List.not_mem_nil, or_false] at member
    rcases Position.call_or_type place with rfl | rfl <;> rcases member with rfl | rfl | rfl <;>
      cases plain : path.allPlain <;> simp [named, plain]
  | stdLock member =>
    simp only [List.mem_cons, Prod.mk.injEq, List.not_mem_nil, or_false] at member
    rcases Position.call_or_type place with rfl | rfl <;> rcases member with ⟨rfl, rfl⟩ | ⟨rfl, rfl⟩ <;>
      cases plain : path.plainBelow 2 <;> simp [named, plain]
  | stdLockNew member =>
    simp only [List.mem_cons, Prod.mk.injEq, List.not_mem_nil, or_false] at member
    rcases Position.call_or_type place with rfl | rfl <;> rcases member with ⟨rfl, rfl⟩ | ⟨rfl, rfl⟩ <;>
      cases plain : path.plainExcept 2 <;> simp [named, plain]
  | tokioLock member =>
    simp only [List.mem_cons, Prod.mk.injEq, List.not_mem_nil, or_false] at member
    rcases Position.call_or_type place with rfl | rfl <;>
      rcases member with ⟨rfl, rfl⟩ | ⟨rfl, rfl⟩ | ⟨rfl, rfl⟩ | ⟨rfl, rfl⟩ <;>
      cases plain : path.plainBelow 2 <;> simp [named, plain]
  | @tokioLockNew ty target method member constructor =>
    have found : tokioModelTargetFor ty = some target := by
      simp only [List.mem_cons, Prod.mk.injEq, List.not_mem_nil, or_false] at member
      rcases member with ⟨rfl, rfl⟩ | ⟨rfl, rfl⟩ | ⟨rfl, rfl⟩ | ⟨rfl, rfl⟩ <;> rfl
    simp only [List.mem_cons, List.not_mem_nil, or_false] at constructor
    rcases Position.call_or_type place with rfl | rfl <;> rcases constructor with rfl | rfl <;>
      cases plain : path.plainExcept 2 <;>
      simp [named, plain, found, -tokioModelTargetFor, -Outcome.ofClass, ofClass_ne_replaced]
  | tokioMpsc member =>
    simp only [List.mem_cons, List.not_mem_nil, or_false] at member
    rcases Position.call_or_type place with rfl | rfl <;> rcases member with rfl | rfl <;>
      cases plain : path.plainBelow 3 <;> simp [named, plain]
  | tokioChannel member =>
    simp only [List.mem_cons, List.not_mem_nil, or_false] at member
    rcases Position.call_or_type place with rfl | rfl <;> rcases member with rfl | rfl | rfl <;>
      cases plain : path.plainBelow 3 <;> simp [named, plain]
  | timeFn member =>
    simp only [List.mem_cons, List.not_mem_nil, or_false] at member
    rcases Position.call_or_type place with rfl | rfl <;> rcases member with rfl | rfl | rfl <;>
      cases plain : path.allPlain <;> simp [named, plain]
  | condvar => rcases Position.call_or_type place with rfl | rfl <;> simp [named]
  | stdAtomic name rest =>
    rcases Position.call_or_type place with rfl | rfl <;> cases rest <;> simp [named]
    all_goals grind
  | stdMpsc name rest =>
    rcases Position.call_or_type place with rfl | rfl <;> cases rest <;> simp [named]
    all_goals grind
  | tokioTime member =>
    simp only [List.mem_cons, List.not_mem_nil, or_false] at member
    rcases Position.call_or_type place with rfl | rfl <;>
      rcases member with rfl | rfl | rfl | rfl | rfl | rfl | rfl | rfl <;>
      cases plain : path.plainBelow 2 <;> simp [named, plain]

end Evaluation

/-- A primitive with a counterpart is on the list of replaced paths. -/
theorem Watched.counterpart_mem {idents target : List Ident} {watch : Watch} (watched : Watched idents watch)
    (modeled : watch.counterpart = some target) :
    (idents, target) ∈ counterparts ∧ target ≠ ["spawn_task"] ∧
      (target = ["spawn"] → idents = ["std", "thread", "spawn"]) := by
  cases watched with
  | tokioSpawn | tokioTaskSpawn | condvar | stdAtomic | stdMpsc | tokioTime => exact absurd modeled (by simp)
  | stdSpawn =>
    obtain rfl := Option.some.inj modeled
    decide
  | stdLock member | stdLockNew member =>
    obtain rfl := Option.some.inj modeled
    simp only [List.mem_cons, Prod.mk.injEq, List.not_mem_nil, or_false] at member
    rcases member with ⟨rfl, rfl⟩ | ⟨rfl, rfl⟩ <;> decide
  | tokioLock member =>
    obtain rfl := Option.some.inj modeled
    simp only [List.mem_cons, Prod.mk.injEq, List.not_mem_nil, or_false] at member
    rcases member with ⟨rfl, rfl⟩ | ⟨rfl, rfl⟩ | ⟨rfl, rfl⟩ | ⟨rfl, rfl⟩ <;> decide
  | tokioLockNew member constructor =>
    obtain rfl := Option.some.inj modeled
    simp only [List.mem_cons, Prod.mk.injEq, List.not_mem_nil, or_false] at member constructor
    rcases constructor with rfl | rfl <;>
      rcases member with ⟨rfl, rfl⟩ | ⟨rfl, rfl⟩ | ⟨rfl, rfl⟩ | ⟨rfl, rfl⟩ <;> decide
  | tokioMpsc member =>
    obtain rfl := Option.some.inj modeled
    simp only [List.mem_cons, List.not_mem_nil, or_false] at member
    rcases member with rfl | rfl <;> decide
  | tokioChannel member | timeFn member =>
    obtain rfl := Option.some.inj modeled
    simp only [List.mem_cons, List.not_mem_nil, or_false] at member
    rcases member with rfl | rfl | rfl <;> decide

/-! ## Functions -/

/-- The primitive that a site stands for by the scopes around it. -/
def Site.canonical (named : Named) (site : Site) : List Ident :=
  canonicalIdents named site.regions site.occurrence.position site.occurrence.path

/-- The path as the function's table has it. -/
def Site.expanded (func : ItemFn) (site : Site) : Path Unit :=
  effectivePath (fnRewrite Aliases.empty func).aliases site.occurrence.path

/-- The function's table resolves the path as the scopes around it do. -/
def Site.Resolved (named : Named) (func : ItemFn) (site : Site) : Prop :=
  (site.expanded func).idents = site.canonical named

/-- No rewriter matches the path, and what it mentions puts it into the family of the primitive. -/
def Watch.MarkedByMention (watch : Watch) (position : Position) (path : Path Unit) : Prop :=
  (∀ rewritten, outcome {} position path ≠ .replaced rewritten) ∧
    ∃ primitive, watch.marker = some primitive ∧ classifyUnmodeled path = some primitive

/-- Where a site is treated as the primitive that it stands for. -/
def Watch.Sees (watch : Watch) (named : Named) (func : ItemFn) (site : Site) : Prop :=
  (site.Resolved named func ∧ watch.recognised site.occurrence.position (site.expanded func)) ∨
    (¬ site.Resolved named func ∧ watch.MarkedByMention site.occurrence.position (site.expanded func))

/-- Only what a site stands for is replaced by its counterpart. -/
theorem Watched.resolved_of_replaced {named : Named} {func : ItemFn} {site : Site} {watch : Watch}
    (watched : Watched (site.canonical named) watch) {target : List Ident} (modeled : watch.counterpart = some target)
    {rewritten : Path Unit} (replaced : outcome {} site.occurrence.position (site.expanded func) = .replaced rewritten)
    (isTarget : rewritten.idents = rtIdents target) : site.Resolved named func := by
  obtain ⟨listed, noTask, isSpawn⟩ := watched.counterpart_mem modeled
  obtain ⟨target', isTarget', listed'⟩ := rewrites_counterpart (outcome_rewrites replaced)
  obtain rfl : target = target' := List.cons.inj (List.cons.inj (isTarget.symm.trans isTarget')).2 |>.2
  rcases counterparts_injective _ listed' _ listed rfl with same | spawn | task
  · exact same
  · -- `thread::spawn` is taken for the primitive as well, but stands for itself
    obtain rfl : target = ["spawn"] := spawn
    have isThread : (site.expanded func).idents = ["std", "thread", "spawn"] ∨
        (site.expanded func).idents = ["thread", "spawn"] := by
      have only : ∀ pair ∈ counterparts, pair.2 = ["spawn"] →
          pair.1 = ["std", "thread", "spawn"] ∨ pair.1 = ["thread", "spawn"] := by decide
      exact only _ listed' rfl
    have canonical := isSpawn rfl
    rcases isThread with isThread | isThread
    · exact isThread.trans canonical.symm
    · exfalso
      have written : site.canonical named = site.occurrence.path.idents := by
        rcases canonicalIdents_cases named site.regions site.occurrence.position site.occurrence.path with same | tokio
        · exact same
        · rw [← Site.canonical, canonical] at tokio
          exact absurd tokio (by decide)
      rw [canonical] at written
      rcases effectivePath_idents_cases (fnRewrite_rooted Aliases.rooted_empty func) site.occurrence.path with
        same | tokio
      · rw [Site.expanded, same, ← written] at isThread
        exact absurd isThread (by decide)
      · rw [← Site.expanded, isThread] at tokio
        exact absurd tokio (by decide)
  · exact absurd task noTask

theorem outcome_flagged_iff {position : Position} (place : position ≠ .macroName) {path : Path Unit}
    {primitive : Unmodeled} : outcome {} position path = .flagged primitive ↔
      (∀ rewritten, outcome {} position path ≠ .replaced rewritten) ∧ classifyUnmodeled path = some primitive := by
  constructor
  · intro flagged
    have kept : ∀ rewritten, outcome {} position path ≠ .replaced rewritten := by
      intro rewritten replaced
      cases flagged.symm.trans replaced
    refine ⟨kept, ?_⟩
    rw [outcome_of_not_replaced kept] at flagged
    rcases Position.call_or_type place with rfl | rfl <;>
      cases found : classifyUnmodeled path <;> simp_all [classOutcome, Outcome.ofClass]
  · rintro ⟨kept, classified⟩
    rw [outcome_of_not_replaced kept]
    rcases Position.call_or_type place with rfl | rfl <;> rw [classOutcome, classified, Outcome.ofClass]

/-- A hook meets the primitive exactly where the site is treated as it. -/
theorem Watched.meets_iff_sees {named : Named} {func : ItemFn} {site : Site} {watch : Watch}
    (watched : Watched (site.canonical named) watch) (place : site.occurrence.position ≠ .macroName) :
    watch.Meets (outcome {} site.occurrence.position (site.expanded func)) ↔ watch.Sees named func site := by
  by_cases resolved : site.Resolved named func
  · rw [Watch.Sees, and_iff_right resolved, or_iff_left fun other => other.1 resolved]
    exact Watched.meets_iff (resolved.symm ▸ watched) place
  · rw [Watch.Sees, and_iff_right resolved, or_iff_right fun other => resolved other.1]
    constructor
    · rintro (⟨target, rewritten, modeled, replaced, isTarget⟩ | ⟨primitive, marked, flagged⟩)
      · exact absurd (watched.resolved_of_replaced modeled replaced isTarget) resolved
      · obtain ⟨kept, classified⟩ := (outcome_flagged_iff place).mp flagged
        exact ⟨kept, primitive, marked, classified⟩
    · rintro ⟨kept, primitive, marked, classified⟩
      exact .inr ⟨primitive, marked, (outcome_flagged_iff place).mpr ⟨kept, classified⟩⟩

/-- At the site, the rewritten function names the model path; or it begins with the family's marker. -/
def Covers (func rewritten : ItemFn) (index : ℕ) (watch : Watch) : Prop :=
  (∃ target site, watch.counterpart = some target ∧ (fnSites {} rewritten)[index]? = some site ∧
    site.occurrence.path.idents = rtIdents target) ∨
  ∃ primitive, watch.marker = some primitive ∧ markerStmt primitive ∈ prependedStmts func rewritten

/-- No primitive with a counterpart is written as a model path. -/
theorem Watched.not_model_path {named : Named} {site : Site} {watch : Watch} {target : List Ident}
    (watched : Watched (site.canonical named) watch) (modeled : watch.counterpart = some target) :
    site.occurrence.path.idents ≠ rtIdents target := by
  intro written
  -- an import keeps `rt` in the path, which no primitive with a counterpart mentions
  have mentions : "rt" ∈ site.canonical named := mem_canonicalIdents written List.mem_cons_self
  have unmentioned : ∀ pair ∈ counterparts, "rt" ∉ pair.1 := by decide
  exact unmentioned _ (watched.counterpart_mem modeled).1 mentions

/-- Where the scopes around a site of an annotated function make it a watched primitive, it is covered exactly when the
function's table resolves it to the same and the matchers recognise its place and arguments, when the table misses it
and what its path mentions marks it all the same, or when another site of the function records the same marker. -/
theorem covers_iff_recognised (named : Named) (around : List Region) (func : ItemFn) (index : ℕ) (site : Site)
    (here : (fnSites { regions := around } func)[index]? = some site)
    (place : site.occurrence.position ≠ .macroName) (watch : Watch)
    (watched : Watched (site.canonical named) watch) :
    Covers func (applyModelRewrite func) index watch ↔
      watch.Sees named func site ∨
      ∃ primitive other otherSite, watch.marker = some primitive ∧ other ≠ index ∧
        (fnSites { regions := around } func)[other]? = some otherSite ∧
        primitive ∈ otherSite.flags (fnRewrite Aliases.empty func) := by
  have rewritten := congrArg (fun sites => sites[index]?)
    (fnSites_rewritten Aliases.rooted_empty {} { regions := around } func)
  simp only [List.getElem?_map, here, Option.map_some, Option.map_eq_some_iff] at rewritten
  obtain ⟨after, found, occurrence⟩ := rewritten
  have markers (primitive : Unmodeled) := markerStmt_prepended_iff Aliases.empty { regions := around } func primitive
  have meets : _ ↔ watch.Sees named func site := watched.meets_iff_sees place
  constructor
  · rintro (⟨target, output, modeled, atIndex, isTarget⟩ | ⟨primitive, marked, prepended⟩)
    · obtain rfl := Option.some.inj (found.symm.trans atIndex)
      rw [occurrence, Occurrence.rewritten] at isTarget
      refine .inl (meets.mp (.inl ⟨target, ?_⟩))
      cases treated : (fnRewrite Aliases.empty func).treat site.occurrence.position site.occurrence.path with
      | replaced path =>
        rw [treated] at isTarget
        exact ⟨path, modeled, treated, isTarget⟩
      | flagged | untouched =>
        rw [treated] at isTarget
        exact absurd isTarget (watched.not_model_path modeled)
    · obtain ⟨other, member, flagged⟩ := (markers primitive).mp prepended
      obtain ⟨otherIndex, inside, rfl⟩ := List.mem_iff_getElem.mp member
      have atOther := List.getElem?_eq_getElem inside
      rcases eq_or_ne otherIndex index with rfl | distinct
      · obtain rfl := Option.some.inj (here.symm.trans atOther)
        refine .inl (meets.mp (.inr ⟨primitive, marked, ?_⟩))
        rw [Site.flags] at flagged
        cases treated : (fnRewrite Aliases.empty func).treat
            (fnSites { regions := around } func)[otherIndex].occurrence.position
            (fnSites { regions := around } func)[otherIndex].occurrence.path with
        | flagged found =>
          rw [treated] at flagged
          obtain rfl := List.mem_singleton.mp flagged
          exact treated
        | replaced | untouched =>
          rw [treated] at flagged
          exact absurd flagged List.not_mem_nil
      · exact .inr ⟨primitive, otherIndex, _, marked, distinct, atOther, flagged⟩
  · rintro (recognised | ⟨primitive, other, otherSite, marked, -, atOther, flagged⟩)
    · rcases meets.mpr recognised with ⟨target, path, modeled, treated, isTarget⟩ | ⟨primitive, marked, treated⟩
      · refine .inl ⟨target, after, modeled, found, ?_⟩
        rw [occurrence, Occurrence.rewritten, ModelRewrite.treat]
        change (Outcome.path _ (outcome {} _ (site.expanded func))).idents = _
        rw [treated]
        exact isTarget
      · refine .inr ⟨primitive, marked, (markers primitive).mpr ⟨site, List.mem_of_getElem? here, ?_⟩⟩
        rw [Site.flags, ModelRewrite.treat]
        change primitive ∈ (outcome {} _ (site.expanded func)).flags
        rw [treated]
        exact List.mem_singleton_self _
    · exact .inr ⟨primitive, marked, (markers primitive).mpr ⟨otherSite, List.mem_of_getElem? atOther, flagged⟩⟩

/-- `tokio::spawn::<_>(work);` in a function without imports. -/
def turbofishSpawn : ItemFn where
  ident := "launch"
  signature := []
  stmts := [.expr (.exprCall
    (.exprPath none { segments := [⟨"tokio", .none⟩, ⟨"spawn", .angleBracketed [.other "_" []]⟩] })
    [.exprPath none { segments := [⟨"work", .none⟩] }]) true]

/-- A turbofish on the spawn segment passes silently: neither a model path nor the marker appears. -/
theorem turbofishSpawn_silent :
    ∃ site watch, (fnSites {} turbofishSpawn)[0]? = some site ∧ site.occurrence.position = .call ∧
      (∀ named, Watched (site.canonical named) watch) ∧
      ¬ Covers turbofishSpawn (applyModelRewrite turbofishSpawn) 0 watch := by
  refine ⟨_, _, rfl, rfl, fun _ => .tokioSpawn, ?_⟩
  rintro (⟨target, site, modeled, -⟩ | ⟨primitive, -, prepended⟩)
  · exact absurd modeled (by simp)
  · exact absurd prepended List.not_mem_nil

/-- `std::sync::Mutex::new(0)` in a function without imports. -/
def plainMutex : ItemFn where
  ident := "build"
  signature := []
  stmts := [.expr (.exprCall
    (.exprPath none { segments := [⟨"std", .none⟩, ⟨"sync", .none⟩, ⟨"Mutex", .none⟩, ⟨"new", .none⟩] })
    [.other "0" []]) true]

theorem covers_iff_recognised_plainMutex :
    Covers plainMutex (applyModelRewrite plainMutex) 0
      ⟨some ["ModelMutex", "new"], none, fun position path => position = .call ∧ path.plainExcept 2 = true⟩ :=
  (covers_iff_recognised (fun _ _ => true) [] plainMutex 0 _ rfl (by decide) _
    (.stdLockNew (List.mem_cons_self))).mpr (.inl (.inl ⟨rfl, rfl, rfl⟩))

end Laplace.Soundness
