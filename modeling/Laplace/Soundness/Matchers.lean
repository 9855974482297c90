import Laplace.Soundness.PathShape

/-! # Matchers by identifiers

The matchers as functions of the identifiers of a path and of which segments are plain, and what they
do with paths that mention an identifier outside their tables.
-/

namespace Laplace.Model

variable {α : Type}

/-- The first segments carry no arguments. -/
def Path.plainBelow (count : ℕ) (path : Path α) : Bool :=
  (path.segments.take count).all fun segment => segment.arguments.isNone

/-- No segment except possibly the one at `index` carries arguments. -/
def Path.plainExcept (index : ℕ) (path : Path α) : Bool :=
  (path.segments.eraseIdx index).all fun segment => segment.arguments.isNone

def Path.argumentsAt (index : ℕ) (path : Path α) : PathArguments α :=
  (path.segments[index]?.map fun segment => segment.arguments).getD .none

private theorem bne_or_bne_of_not_and {first second root module : Ident}
    (named : ¬(first = root ∧ second = module)) : (first != root || second != module) = true := by
  rw [Bool.or_eq_true, bne_iff_ne, bne_iff_ne]
  exact not_and_or.mp named

theorem rewriteTypePath_eq (root module : Ident) (targetFor : Ident → Option Ident)
    (build : Ident → PathArguments α → Path α) (path : Path α) :
    rewriteTypePath root module targetFor build path = match path.idents with
      | [first, second, ty] => if first = root ∧ second = module ∧ path.plainBelow 2 = true then
          (targetFor ty).map fun target => build target (path.argumentsAt 2) else none
      | _ => none := by
  obtain ⟨leadingColon, segments⟩ := path
  rcases segments with _ | ⟨first, _ | ⟨second, _ | ⟨ty, _ | ⟨fourth, rest⟩⟩⟩⟩ <;> try rfl
  simp only [rewriteTypePath, Path.idents, List.map_cons, List.map_nil, Path.plainBelow, List.take_succ_cons,
    List.take_zero, List.all_cons, List.all_nil, Bool.and_true]
  by_cases named : first.ident = root ∧ second.ident = module
  · cases one : first.arguments.isNone <;> cases two : second.arguments.isNone <;> simp [named, Path.argumentsAt]
  · rw [if_pos (bne_or_bne_of_not_and named), if_neg (fun all => named ⟨all.1, all.2.1⟩)]

theorem rewriteConstructorPath_eq (root module : Ident) (targetFor : Ident → Option Ident)
    (methods : List Ident) (path : Path α) :
    rewriteConstructorPath root module targetFor methods path = match path.idents with
      | [first, second, ty, method] =>
          if first = root ∧ second = module ∧ method ∈ methods ∧ path.plainExcept 2 = true then
            (targetFor ty).map fun target => modelPath target (path.argumentsAt 2) (some (.plain method)) else none
      | _ => none := by
  obtain ⟨leadingColon, segments⟩ := path
  rcases segments with _ | ⟨first, _ | ⟨second, _ | ⟨ty, _ | ⟨⟨method, last⟩, _ | ⟨fifth, rest⟩⟩⟩⟩⟩ <;> try rfl
  simp only [rewriteConstructorPath, Path.idents, List.map_cons, List.map_nil, Path.plainExcept,
    List.eraseIdx_cons_succ, List.eraseIdx_cons_zero, List.all_cons, List.all_nil, Bool.and_true]
  by_cases named : first.ident = root ∧ second.ident = module
  · by_cases member : method ∈ methods
    · cases one : first.arguments.isNone <;> cases two : second.arguments.isNone <;> cases last <;>
        simp [named, member, PathArguments.isNone, Path.argumentsAt, PathSegment.plain]
    · simp [named, member]
  · rw [if_pos (bne_or_bne_of_not_and named), if_neg (fun all => named ⟨all.1, all.2.1⟩)]

theorem rewriteChannelPath_eq (targetFor : Ident → Ident → Option (Ident × Ident)) (path : Path α) :
    rewriteChannelPath targetFor path = match path.idents with
      | [first, second, module, name] =>
          if first = "tokio" ∧ second = "sync" ∧ path.plainBelow 3 = true then
            (targetFor module name).map fun target => channelPath target.1 target.2 (path.argumentsAt 3) else none
      | _ => none := by
  obtain ⟨leadingColon, segments⟩ := path
  rcases segments with _ | ⟨first, _ | ⟨second, _ | ⟨module, _ | ⟨name, _ | ⟨fifth, rest⟩⟩⟩⟩⟩ <;> try rfl
  simp only [rewriteChannelPath, Path.idents, List.map_cons, List.map_nil, Path.plainBelow, List.take_succ_cons,
    List.take_zero, List.all_cons, List.all_nil, Bool.and_true]
  by_cases named : first.ident = "tokio" ∧ second.ident = "sync"
  · cases one : first.arguments.isNone <;> cases two : second.arguments.isNone <;>
      cases three : module.arguments.isNone <;> simp [named, Path.argumentsAt]
  · rw [if_pos (bne_or_bne_of_not_and named), if_neg (fun all => named ⟨all.1, all.2.1⟩)]

theorem rewriteTokioTimeFnPath_eq (path : Path α) :
    rewriteTokioTimeFnPath path = match path.idents with
      | [first, second, func] =>
          if first = "tokio" ∧ second = "time" ∧ path.allPlain = true then
            (timeFnTargetFor func).map fun target => rtPath [.plain "time", .plain target] else none
      | _ => none := by
  obtain ⟨leadingColon, segments⟩ := path
  rcases segments with _ | ⟨first, _ | ⟨second, _ | ⟨func, _ | ⟨fourth, rest⟩⟩⟩⟩ <;> try rfl
  simp only [rewriteTokioTimeFnPath, Path.idents, List.map_cons, List.map_nil, Path.allPlain, List.all_cons,
    List.all_nil, Bool.and_true]
  by_cases named : first.ident = "tokio" ∧ second.ident = "time"
  · cases one : first.arguments.isNone <;> cases two : second.arguments.isNone <;>
      cases three : func.arguments.isNone <;> simp [named]
  · rw [if_pos (bne_or_bne_of_not_and named), if_neg (fun all => named ⟨all.1, all.2.1⟩)]

theorem classifyTokioTimeUnmodeled_eq (path : Path α) :
    classifyTokioTimeUnmodeled path = match path.idents with
      | first :: second :: name :: _ =>
          if first = "tokio" ∧ second = "time" ∧ path.plainBelow 2 = true ∧
            name ∈ ["Instant", "sleep_until", "interval_at", "timeout_at", "advance", "pause", "resume"]
          then some .tokioTime else none
      | _ => none := by
  obtain ⟨leadingColon, segments⟩ := path
  rcases segments with _ | ⟨first, _ | ⟨second, _ | ⟨name, rest⟩⟩⟩ <;> try rfl
  simp only [classifyTokioTimeUnmodeled, Path.idents, List.map_cons, Path.plainBelow, List.take_succ_cons,
    List.take_zero, List.all_cons, List.all_nil, Bool.and_true]
  by_cases named : first.ident = "tokio" ∧ second.ident = "time"
  · cases one : first.arguments.isNone <;> cases two : second.arguments.isNone <;> simp [named]
  · rw [if_pos (bne_or_bne_of_not_and named), if_neg (fun all => named ⟨all.1, all.2.1⟩)]

theorem classifyArcSwapUnmodeled_eq (path : Path α) :
    classifyArcSwapUnmodeled path = match path.idents with
      | first :: _ => if first ∈ ["arc_swap", "ArcSwap", "ArcSwapOption", "ArcSwapAny", "ArcSwapWeak"]
          then some .arcSwap else none
      | [] => none := by
  obtain ⟨leadingColon, segments⟩ := path
  cases segments with
  | nil => rfl
  | cons first rest => simp [classifyArcSwapUnmodeled, Path.idents]

/-! ## Paths no rewriter knows -/

/-- What the hooks do when no rewriter matches. -/
def classOutcome (position : Position) (path : Path α) : Outcome α :=
  match position with
  | .macroName => .untouched
  | .call | .type => .ofClass (classifyUnmodeled path)

/-- A chain that replaces nothing is decided by its tail. -/
theorem Outcome.orElse_of_not_replaced {rewritten : Option (Path α)} {otherwise : Outcome α}
    (kept : ∀ path, Outcome.orElse rewritten otherwise ≠ .replaced path) :
    Outcome.orElse rewritten otherwise = otherwise ∧ ∀ path, otherwise ≠ .replaced path := by
  cases rewritten with
  | none => exact ⟨rfl, kept⟩
  | some found => exact absurd rfl (kept found)

theorem outcome_of_not_replaced {options : ModelRewriteOptions} {position : Position} {path : Path α}
    (kept : ∀ rewritten, outcome options position path ≠ .replaced rewritten) :
    outcome options position path = classOutcome position path := by
  cases position with
  | call =>
    simp only [outcome, callOutcome] at kept ⊢
    split at kept
    · exact absurd rfl (kept _)
    next tasks =>
      rw [if_neg tasks]
      split at kept
      · exact absurd rfl (kept _)
      next spawn =>
        rw [if_neg spawn]
        obtain ⟨std, kept⟩ := Outcome.orElse_of_not_replaced kept
        obtain ⟨tokio, kept⟩ := Outcome.orElse_of_not_replaced kept
        obtain ⟨channel, kept⟩ := Outcome.orElse_of_not_replaced kept
        rw [std, tokio, channel]
        exact (Outcome.orElse_of_not_replaced kept).1
  | type =>
    simp only [outcome, typeOutcome] at kept ⊢
    obtain ⟨std, kept⟩ := Outcome.orElse_of_not_replaced kept
    obtain ⟨tokio, kept⟩ := Outcome.orElse_of_not_replaced kept
    obtain ⟨channel, kept⟩ := Outcome.orElse_of_not_replaced kept
    rw [std, tokio, channel]
    exact (Outcome.orElse_of_not_replaced kept).1
  | macroName =>
    simp only [outcome, macroOutcome] at kept ⊢
    split at kept
    · exact absurd rfl (kept _)
    next other => rw [if_neg other]; rfl

/-- The identifiers the rewriters look for. -/
def rewriterIdents : List Ident :=
  ["std", "thread", "spawn", "tokio", "task", "sync", "time", "select", "Mutex", "RwLock", "Semaphore", "Notify",
    "new", "const_new", "mpsc", "oneshot", "watch", "broadcast", "channel", "unbounded_channel", "Sender",
    "Receiver", "UnboundedSender", "UnboundedReceiver", "Ref", "sleep", "timeout", "interval", "Sleep",
    "Timeout", "Interval"]

theorem rewriteTypePath_inv {root module : Ident} {targetFor : Ident → Option Ident}
    {build : Ident → PathArguments α → Path α} {path rewritten : Path α}
    (matched : rewriteTypePath root module targetFor build path = some rewritten) :
    ∃ ty target, path.idents = [root, module, ty] ∧ targetFor ty = some target ∧
      rewritten = build target (path.argumentsAt 2) := by
  rw [rewriteTypePath_eq] at matched
  split at matched
  next first second ty named =>
    split at matched
    next both =>
      obtain ⟨rfl, rfl, -⟩ := both
      obtain ⟨target, found, rfl⟩ := Option.map_eq_some_iff.mp matched
      exact ⟨ty, target, named, found, rfl⟩
    next => exact absurd matched (by simp)
  next => exact absurd matched (by simp)

theorem rewriteConstructorPath_inv {root module : Ident} {targetFor : Ident → Option Ident}
    {methods : List Ident} {path rewritten : Path α}
    (matched : rewriteConstructorPath root module targetFor methods path = some rewritten) :
    ∃ ty method target, path.idents = [root, module, ty, method] ∧ targetFor ty = some target ∧
      method ∈ methods ∧ rewritten = modelPath target (path.argumentsAt 2) (some (.plain method)) := by
  rw [rewriteConstructorPath_eq] at matched
  split at matched
  next first second ty method named =>
    split at matched
    next all =>
      obtain ⟨rfl, rfl, member, -⟩ := all
      obtain ⟨target, found, rfl⟩ := Option.map_eq_some_iff.mp matched
      exact ⟨ty, method, target, named, found, member, rfl⟩
    next => exact absurd matched (by simp)
  next => exact absurd matched (by simp)

theorem rewriteChannelPath_inv {targetFor : Ident → Ident → Option (Ident × Ident)} {path rewritten : Path α}
    (matched : rewriteChannelPath targetFor path = some rewritten) :
    ∃ module name target, path.idents = ["tokio", "sync", module, name] ∧ targetFor module name = some target ∧
      rewritten = channelPath target.1 target.2 (path.argumentsAt 3) := by
  rw [rewriteChannelPath_eq] at matched
  split at matched
  next first second module name named =>
    split at matched
    next all =>
      obtain ⟨rfl, rfl, -⟩ := all
      obtain ⟨target, found, rfl⟩ := Option.map_eq_some_iff.mp matched
      exact ⟨module, name, target, named, found, rfl⟩
    next => exact absurd matched (by simp)
  next => exact absurd matched (by simp)

theorem rewriteTokioTimeFnPath_inv {path rewritten : Path α}
    (matched : rewriteTokioTimeFnPath path = some rewritten) :
    ∃ func target, path.idents = ["tokio", "time", func] ∧ timeFnTargetFor func = some target ∧
      rewritten = rtPath [.plain "time", .plain target] := by
  rw [rewriteTokioTimeFnPath_eq] at matched
  split at matched
  next first second func named =>
    split at matched
    next all =>
      obtain ⟨rfl, rfl, -⟩ := all
      obtain ⟨target, found, rfl⟩ := Option.map_eq_some_iff.mp matched
      exact ⟨func, target, named, found, rfl⟩
    next => exact absurd matched (by simp)
  next => exact absurd matched (by simp)

/-- A path made of identifiers the rewriters look for, and its replacement below `::laplace_sdk::rt`. -/
def Modeled (path rewritten : Path α) : Prop :=
  path.idents ⊆ rewriterIdents ∧ ∃ segments, rewritten = rtPath segments

theorem modeled_of_isPlain {path : Path α} {idents : List Ident} (plain : path.isPlain idents = true)
    (known : idents ⊆ rewriterIdents) (segments : List (PathSegment α)) : Modeled path (rtPath segments) := by
  rw [Path.isPlain, Bool.and_eq_true, beq_iff_eq] at plain
  exact ⟨plain.2 ▸ known, segments, rfl⟩

theorem modeled_of_type {root module : Ident} {targetFor : Ident → Option Ident}
    {build : Ident → PathArguments α → Path α} (roots : [root, module] ⊆ rewriterIdents)
    (targets : ∀ ty target, targetFor ty = some target → ty ∈ rewriterIdents)
    (built : ∀ target arguments, ∃ segments, build target arguments = rtPath segments) {path rewritten : Path α}
    (matched : rewriteTypePath root module targetFor build path = some rewritten) : Modeled path rewritten := by
  obtain ⟨ty, target, named, found, rfl⟩ := rewriteTypePath_inv matched
  refine ⟨?_, built target _⟩
  rw [named]
  exact List.append_subset.mpr ⟨roots, List.cons_subset.mpr ⟨targets ty target found, List.nil_subset _⟩⟩

theorem modeled_of_constructor {root module : Ident} {targetFor : Ident → Option Ident} {methods : List Ident}
    (roots : [root, module] ⊆ rewriterIdents)
    (targets : ∀ ty target, targetFor ty = some target → ty ∈ rewriterIdents) (known : methods ⊆ rewriterIdents)
    {path rewritten : Path α}
    (matched : rewriteConstructorPath root module targetFor methods path = some rewritten) :
    Modeled path rewritten := by
  obtain ⟨ty, method, target, named, found, member, rfl⟩ := rewriteConstructorPath_inv matched
  refine ⟨?_, _, rfl⟩
  rw [named]
  exact List.append_subset.mpr ⟨roots, List.cons_subset.mpr
    ⟨targets ty target found, List.cons_subset.mpr ⟨known member, List.nil_subset _⟩⟩⟩

theorem modeled_of_channel {targetFor : Ident → Ident → Option (Ident × Ident)}
    (targets : ∀ module name target, targetFor module name = some target → [module, name] ⊆ rewriterIdents)
    {path rewritten : Path α} (matched : rewriteChannelPath targetFor path = some rewritten) :
    Modeled path rewritten := by
  obtain ⟨module, name, target, named, found, rfl⟩ := rewriteChannelPath_inv matched
  refine ⟨?_, _, rfl⟩
  rw [named]
  exact List.append_subset.mpr ⟨(by decide : ["tokio", "sync"] ⊆ rewriterIdents), targets module name target found⟩

theorem modeled_of_timeFn {path rewritten : Path α} (matched : rewriteTokioTimeFnPath path = some rewritten) :
    Modeled path rewritten := by
  obtain ⟨func, target, named, found, rfl⟩ := rewriteTokioTimeFnPath_inv matched
  have known : func ∈ rewriterIdents := by
    unfold timeFnTargetFor at found
    split_ifs at found <;> subst_vars <;> decide
  refine ⟨?_, _, rfl⟩
  rw [named]
  exact List.append_subset.mpr ⟨(by decide : ["tokio", "time"] ⊆ rewriterIdents),
    List.cons_subset.mpr ⟨known, List.nil_subset _⟩⟩

/-- A hook replaces only paths made of the rewriters' identifiers, by paths below `::laplace_sdk::rt`. -/
theorem outcome_replaced {options : ModelRewriteOptions} {position : Position} {path rewritten : Path α}
    (replaced : outcome options position path = .replaced rewritten) : Modeled path rewritten := by
  have std (ty target : Ident) (found : modelTargetFor ty = some target) : ty ∈ rewriterIdents := by
    unfold modelTargetFor at found
    split_ifs at found <;> subst_vars <;> decide
  have tokio (ty target : Ident) (found : tokioModelTargetFor ty = some target) : ty ∈ rewriterIdents := by
    unfold tokioModelTargetFor at found
    split_ifs at found <;> subst_vars <;> decide
  have channelFn (module name : Ident) (target : Ident × Ident)
      (found : tokioChannelFnTargetFor module name = some target) : [module, name] ⊆ rewriterIdents := by
    unfold tokioChannelFnTargetFor at found
    split at found <;> first | decide | exact absurd found (by simp)
  have channelType (module name : Ident) (target : Ident × Ident)
      (found : tokioChannelTypeTargetFor module name = some target) : [module, name] ⊆ rewriterIdents := by
    unfold tokioChannelTypeTargetFor at found
    split at found <;> first | decide | exact absurd found (by simp)
  have time (ty target : Ident) (found : timeTypeTargetFor ty = some target) : ty ∈ rewriterIdents := by
    unfold timeTypeTargetFor at found
    split_ifs at found <;> subst_vars <;> decide
  cases outcome_rewrites replaced with
  | plain known matched =>
    have plain : ∀ pair ∈ plainTargets, pair.1 ⊆ rewriterIdents := by decide
    exact modeled_of_isPlain matched (plain _ known) _
  | stdConstructor matched => exact modeled_of_constructor (by decide) std (by decide) matched
  | tokioConstructor matched => exact modeled_of_constructor (by decide) tokio (by decide) matched
  | channelConstructor matched => exact modeled_of_channel channelFn matched
  | timeFn matched => exact modeled_of_timeFn matched
  | stdType matched => exact modeled_of_type (by decide) std (fun _ _ => ⟨_, rfl⟩) matched
  | tokioType matched => exact modeled_of_type (by decide) tokio (fun _ _ => ⟨_, rfl⟩) matched
  | channelType matched => exact modeled_of_channel channelType matched
  | timeType matched => exact modeled_of_type (by decide) time (fun _ _ => ⟨_, rfl⟩) matched

/-- A path that mentions anything else is only classified. -/
theorem outcome_of_mention {path : Path α} {stranger : Ident} (mentions : stranger ∈ path.idents)
    (unknown : stranger ∉ rewriterIdents) (options : ModelRewriteOptions) (position : Position) :
    outcome options position path = classOutcome position path :=
  outcome_of_not_replaced fun _ replaced => unknown ((outcome_replaced replaced).1 mentions)

end Laplace.Model
