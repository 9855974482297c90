import Laplace.Model.ModelRewrite
import Mathlib.Data.List.Induction

/-! # Shapes of paths

A matcher sees the identifiers of a path and which segments carry arguments, never what the
arguments hold. `shape` erases the rest, every matcher commutes with it, and a replaced path carries
the arguments of the matched one.
-/

namespace Laplace.Model

variable {α : Type}

def PathArguments.shape : PathArguments α → PathArguments Unit
  | .none => .none
  | .angleBracketed _ => .angleBracketed []
  | .parenthesized _ => .parenthesized []

def PathSegment.shape (segment : PathSegment α) : PathSegment Unit := ⟨segment.ident, segment.arguments.shape⟩

def Path.shape (path : Path α) : Path Unit := ⟨path.leadingColon, path.segments.map .shape⟩

def Outcome.shape : Outcome α → Outcome Unit
  | .replaced path => .replaced path.shape
  | .flagged primitive => .flagged primitive
  | .untouched => .untouched

@[simp] theorem PathArguments.isNone_shape (arguments : PathArguments α) :
    arguments.shape.isNone = arguments.isNone := by
  cases arguments <;> rfl

@[simp] theorem PathSegment.ident_shape (segment : PathSegment α) : segment.shape.ident = segment.ident := rfl

@[simp] theorem PathSegment.arguments_shape (segment : PathSegment α) :
    segment.shape.arguments = segment.arguments.shape := rfl

@[simp] theorem PathSegment.shape_plain (ident : Ident) : (PathSegment.plain ident : PathSegment α).shape = .plain ident :=
  rfl

@[simp] theorem Path.segments_shape (path : Path α) : path.shape.segments = path.segments.map .shape := rfl

@[simp] theorem Path.idents_shape (path : Path α) : path.shape.idents = path.idents := by
  simp only [Path.idents, Path.segments_shape, List.map_map]
  rfl

@[simp] theorem Path.isPlain_shape (path : Path α) (idents : List Ident) :
    path.shape.isPlain idents = path.isPlain idents := by
  simp only [Path.isPlain, Path.idents_shape, Path.allPlain, Path.segments_shape, List.all_map]
  congr 2
  funext segment
  exact segment.arguments.isNone_shape

@[simp] theorem rtPath_shape (segments : List (PathSegment α)) :
    (rtPath segments).shape = rtPath (segments.map .shape) := rfl

@[simp] theorem modelPath_shape (target : Ident) (arguments : PathArguments α) (method : Option (PathSegment α)) :
    (modelPath target arguments method).shape = modelPath target arguments.shape (method.map .shape) := by
  cases method <;> rfl

@[simp] theorem channelPath_shape (module name : Ident) (arguments : PathArguments α) :
    (channelPath module name arguments).shape = channelPath module name arguments.shape := rfl

/-! ## Matchers commute with erasure -/

theorem rewriteTypePath_shape (root module : Ident) (targetFor : Ident → Option Ident)
    {build : Ident → PathArguments α → Path α} {erased : Ident → PathArguments Unit → Path Unit}
    (natural : ∀ target arguments, (build target arguments).shape = erased target arguments.shape)
    (path : Path α) :
    rewriteTypePath root module targetFor erased path.shape =
      (rewriteTypePath root module targetFor build path).map .shape := by
  obtain ⟨leadingColon, segments⟩ := path
  rcases segments with _ | ⟨first, _ | ⟨second, _ | ⟨ty, _ | ⟨fourth, rest⟩⟩⟩⟩ <;> try rfl
  simp only [rewriteTypePath, Path.shape, List.map_cons, List.map_nil, PathSegment.ident_shape,
    PathSegment.arguments_shape, PathArguments.isNone_shape]
  split_ifs
  · rfl
  · rfl
  · rw [Option.map_map]
    congr 1
    funext target
    exact (natural target ty.arguments).symm

theorem rewriteConstructorPath_shape (root module : Ident) (targetFor : Ident → Option Ident)
    (methods : List Ident) (path : Path α) :
    rewriteConstructorPath root module targetFor methods path.shape =
      (rewriteConstructorPath root module targetFor methods path).map .shape := by
  obtain ⟨leadingColon, segments⟩ := path
  rcases segments with _ | ⟨first, _ | ⟨second, _ | ⟨ty, _ | ⟨method, _ | ⟨fifth, rest⟩⟩⟩⟩⟩ <;> try rfl
  simp only [rewriteConstructorPath, Path.shape, List.map_cons, List.map_nil, PathSegment.ident_shape,
    PathSegment.arguments_shape, PathArguments.isNone_shape]
  split_ifs
  · rfl
  · rfl
  · rw [Option.map_map]
    rfl

theorem rewriteChannelPath_shape (targetFor : Ident → Ident → Option (Ident × Ident)) (path : Path α) :
    rewriteChannelPath targetFor path.shape = (rewriteChannelPath targetFor path).map .shape := by
  obtain ⟨leadingColon, segments⟩ := path
  rcases segments with _ | ⟨tokio, _ | ⟨sync, _ | ⟨module, _ | ⟨name, _ | ⟨fifth, rest⟩⟩⟩⟩⟩ <;> try rfl
  simp only [rewriteChannelPath, Path.shape, List.map_cons, List.map_nil, PathSegment.ident_shape,
    PathSegment.arguments_shape, PathArguments.isNone_shape]
  split_ifs
  · rfl
  · rfl
  · rw [Option.map_map]
    rfl

theorem rewriteTokioTimeFnPath_shape (path : Path α) :
    rewriteTokioTimeFnPath path.shape = (rewriteTokioTimeFnPath path).map .shape := by
  obtain ⟨leadingColon, segments⟩ := path
  rcases segments with _ | ⟨tokio, _ | ⟨time, _ | ⟨func, _ | ⟨fourth, rest⟩⟩⟩⟩ <;> try rfl
  simp only [rewriteTokioTimeFnPath, Path.shape, List.map_cons, List.map_nil, PathSegment.ident_shape,
    PathSegment.arguments_shape, PathArguments.isNone_shape]
  split_ifs
  · rfl
  · rfl
  · rw [Option.map_map]
    rfl

theorem classifyTokioTimeUnmodeled_shape (path : Path α) :
    classifyTokioTimeUnmodeled path.shape = classifyTokioTimeUnmodeled path := by
  obtain ⟨leadingColon, segments⟩ := path
  rcases segments with _ | ⟨tokio, _ | ⟨time, _ | ⟨ident, rest⟩⟩⟩ <;> try rfl
  simp only [classifyTokioTimeUnmodeled, Path.shape, List.map_cons, List.take_succ_cons, List.take_zero,
    PathSegment.ident_shape, PathSegment.arguments_shape, PathArguments.isNone_shape]
  congr

theorem isSupportedSpawnPath_shape (path : Path α) : isSupportedSpawnPath path.shape = isSupportedSpawnPath path := by
  simp only [isSupportedSpawnPath, Path.isPlain_shape]

theorem isTokioSpawnPath_shape (path : Path α) : isTokioSpawnPath path.shape = isTokioSpawnPath path := by
  simp only [isTokioSpawnPath, Path.isPlain_shape]

theorem isUnmodeledTokioSpawnPath_shape (path : Path α) :
    isUnmodeledTokioSpawnPath path.shape = isUnmodeledTokioSpawnPath path := by
  simp only [isUnmodeledTokioSpawnPath, Path.isPlain_shape]

theorem isTokioSelectMacroPath_shape (path : Path α) :
    isTokioSelectMacroPath path.shape = isTokioSelectMacroPath path := by
  simp only [isTokioSelectMacroPath, Path.isPlain_shape]

theorem classifyUnmodeled_shape (path : Path α) : classifyUnmodeled path.shape = classifyUnmodeled path := by
  have arcSwap : classifyArcSwapUnmodeled path.shape = classifyArcSwapUnmodeled path := by
    obtain ⟨leadingColon, segments⟩ := path
    cases segments <;> rfl
  simp only [classifyUnmodeled, classifyTokioTimeUnmodeled_shape, isTokioSpawnPath_shape,
    isUnmodeledTokioSpawnPath_shape, arcSwap, Path.idents_shape]

theorem Outcome.shape_orElse (rewritten : Option (Path α)) (otherwise : Outcome α) :
    (Outcome.orElse rewritten otherwise).shape = .orElse (rewritten.map .shape) otherwise.shape := by
  cases rewritten <;> rfl

theorem Outcome.shape_ite (condition : Prop) [Decidable condition] (first second : Outcome α) :
    (if condition then first else second).shape = if condition then first.shape else second.shape :=
  apply_ite ..

theorem Outcome.shape_ofClass (primitive : Option Unmodeled) :
    (Outcome.ofClass primitive : Outcome α).shape = .ofClass primitive := by
  cases primitive <;> rfl

theorem outcome_shape (options : ModelRewriteOptions) (position : Position) (path : Path α) :
    outcome options position path.shape = (outcome options position path).shape := by
  cases position with
  | call =>
    simp only [outcome, callOutcome, isTokioSpawnPath_shape, isSupportedSpawnPath_shape,
      rewriteStdSyncConstructorPath, rewriteTokioSyncConstructorPath, rewriteTokioSyncChannelConstructorPath,
      rewriteConstructorPath_shape, rewriteChannelPath_shape, rewriteTokioTimeFnPath_shape,
      classifyUnmodeled_shape, Outcome.shape_ite, Outcome.shape_orElse, Outcome.shape_ofClass]
    rfl
  | type =>
    simp only [outcome, typeOutcome, rewriteTokioSyncChannelTypePath, rewriteChannelPath_shape,
      classifyUnmodeled_shape, Outcome.shape_orElse, Outcome.shape_ofClass]
    congr 1
    · exact rewriteTypePath_shape _ _ _ (fun _ _ => modelPath_shape ..) path
    congr 1
    · exact rewriteTypePath_shape _ _ _ (fun _ _ => modelPath_shape ..) path
    congr 2
    exact rewriteTypePath_shape _ _ _ (fun _ _ => rtPath_shape _) path
  | macroName =>
    simp only [outcome, macroOutcome, isTokioSelectMacroPath_shape, Outcome.shape_ite]
    rfl

theorem canonicalize_shape (aliases : Aliases) (path : Path α) :
    canonicalize aliases path.shape = (canonicalize aliases path).map .shape := by
  obtain ⟨leadingColon, segments⟩ := path
  cases segments with
  | nil => rfl
  | cons first rest =>
    simp only [canonicalize, Path.shape, List.map_cons, PathSegment.ident_shape, Option.map_map]
    congr 1
    funext canonical
    simp only [Function.comp_apply, Path.shape, List.map_append, List.map_map]
    cases canonical.getLast? <;> rfl

theorem effectivePath_shape (aliases : Aliases) (path : Path α) :
    effectivePath aliases path.shape = (effectivePath aliases path).shape := by
  rw [effectivePath, canonicalize_shape, effectivePath]
  cases canonicalize aliases path <;> rfl

theorem ModelRewrite.treat_shape (rewrite : ModelRewrite) (position : Position) (path : Path α) :
    rewrite.treat position path.shape = (rewrite.treat position path).shape := by
  rw [treat, effectivePath_shape, outcome_shape, treat]

theorem Outcome.path_shape (original : Path α) (treated : Outcome α) :
    (treated.path original).shape = treated.shape.path original.shape := by
  cases treated <;> rfl

theorem Outcome.flags_shape (treated : Outcome α) : treated.shape.flags = treated.flags := by
  cases treated <;> rfl

/-! ## Replaced paths keep their arguments -/

def PathArguments.nodes : PathArguments α → List α
  | .none => []
  | .angleBracketed args | .parenthesized args => args

/-- All generic arguments of a path, in order. -/
def Path.nodes (path : Path α) : List α := path.segments.flatMap fun segment => segment.arguments.nodes

def PathArguments.carried : PathArguments α → List (PathArguments α)
  | .none => []
  | arguments => [arguments]

/-- The argument lists of a path, in order, wherever in the path they stand. -/
def Path.carried (path : Path α) : List (PathArguments α) :=
  path.segments.flatMap fun segment => segment.arguments.carried

theorem Path.nodes_eq_carried (path : Path α) : path.nodes = path.carried.flatMap PathArguments.nodes := by
  rw [nodes, carried, List.flatMap_assoc]
  congr 1
  funext segment
  cases segment.arguments <;> simp [PathArguments.nodes, PathArguments.carried]

theorem PathArguments.carried_of_isNone {arguments : PathArguments α} (plain : arguments.isNone = true) :
    arguments.carried = [] := by
  cases arguments with
  | none => rfl
  | angleBracketed | parenthesized => exact absurd plain (by simp [isNone])

theorem Path.carried_of_isPlain {path : Path α} {idents : List Ident} (plain : path.isPlain idents = true) :
    path.carried = [] := by
  rw [Path.isPlain, Bool.and_eq_true, Path.allPlain, List.all_eq_true] at plain
  refine List.flatMap_eq_nil_iff.mpr fun segment member => ?_
  exact PathArguments.carried_of_isNone (plain.1 segment member)

theorem rewriteTypePath_carried {root module : Ident} {targetFor : Ident → Option Ident}
    {build : Ident → PathArguments α → Path α}
    (keeps : ∀ target arguments, (build target arguments).carried = arguments.carried)
    {path rewritten : Path α} (matched : rewriteTypePath root module targetFor build path = some rewritten) :
    rewritten.carried = path.carried := by
  obtain ⟨leadingColon, segments⟩ := path
  rcases segments with _ | ⟨first, _ | ⟨second, _ | ⟨ty, _ | ⟨fourth, rest⟩⟩⟩⟩ <;>
    simp only [rewriteTypePath, reduceCtorEq] at matched
  split_ifs at matched with idents plain
  obtain ⟨target, -, rfl⟩ := Option.map_eq_some_iff.mp matched
  simp only [Bool.or_eq_true, Bool.not_eq_true', not_or, Bool.not_eq_false] at plain
  rw [keeps]
  simp only [Path.carried, List.flatMap_cons, List.flatMap_nil, PathArguments.carried_of_isNone plain.1,
    PathArguments.carried_of_isNone plain.2, List.nil_append, List.append_nil]

theorem rewriteConstructorPath_carried {root module : Ident} {targetFor : Ident → Option Ident}
    {methods : List Ident} {path rewritten : Path α}
    (matched : rewriteConstructorPath root module targetFor methods path = some rewritten) :
    rewritten.carried = path.carried := by
  obtain ⟨leadingColon, segments⟩ := path
  rcases segments with _ | ⟨first, _ | ⟨second, _ | ⟨ty, _ | ⟨method, _ | ⟨fifth, rest⟩⟩⟩⟩⟩ <;>
    simp only [rewriteConstructorPath, reduceCtorEq] at matched
  split_ifs at matched with idents plain
  obtain ⟨target, -, rfl⟩ := Option.map_eq_some_iff.mp matched
  simp only [Bool.or_eq_true, Bool.not_eq_true', not_or, Bool.not_eq_false] at plain
  obtain ⟨⟨⟨plainFirst, plainSecond⟩, -⟩, -⟩ := plain
  simp only [Path.carried, modelPath, rtPath, PathSegment.plain, Option.toList, List.flatMap_cons,
    List.flatMap_nil, PathArguments.carried_of_isNone plainFirst, PathArguments.carried_of_isNone plainSecond]
  rfl

theorem rewriteChannelPath_carried {targetFor : Ident → Ident → Option (Ident × Ident)} {path rewritten : Path α}
    (matched : rewriteChannelPath targetFor path = some rewritten) : rewritten.carried = path.carried := by
  obtain ⟨leadingColon, segments⟩ := path
  rcases segments with _ | ⟨tokio, _ | ⟨sync, _ | ⟨module, _ | ⟨name, _ | ⟨fifth, rest⟩⟩⟩⟩⟩ <;>
    simp only [rewriteChannelPath, reduceCtorEq] at matched
  split_ifs at matched with idents plain
  obtain ⟨target, -, rfl⟩ := Option.map_eq_some_iff.mp matched
  simp only [Bool.or_eq_true, Bool.not_eq_true', not_or, Bool.not_eq_false] at plain
  obtain ⟨⟨plainTokio, plainSync⟩, plainModule⟩ := plain
  simp only [Path.carried, channelPath, rtPath, PathSegment.plain, List.flatMap_cons, List.flatMap_nil,
    PathArguments.carried_of_isNone plainTokio, PathArguments.carried_of_isNone plainSync,
    PathArguments.carried_of_isNone plainModule]
  rfl

theorem rewriteTokioTimeFnPath_carried {path rewritten : Path α}
    (matched : rewriteTokioTimeFnPath path = some rewritten) : rewritten.carried = path.carried := by
  obtain ⟨leadingColon, segments⟩ := path
  rcases segments with _ | ⟨tokio, _ | ⟨time, _ | ⟨func, _ | ⟨fourth, rest⟩⟩⟩⟩ <;>
    simp only [rewriteTokioTimeFnPath, reduceCtorEq] at matched
  split_ifs at matched with idents plain
  obtain ⟨target, -, rfl⟩ := Option.map_eq_some_iff.mp matched
  simp only [Bool.or_eq_true, Bool.not_eq_true', not_or, Bool.not_eq_false] at plain
  obtain ⟨⟨plainTokio, plainTime⟩, plainFunc⟩ := plain
  simp only [Path.carried, rtPath, PathSegment.plain, List.flatMap_cons, List.flatMap_nil,
    PathArguments.carried_of_isNone plainTokio, PathArguments.carried_of_isNone plainTime,
    PathArguments.carried_of_isNone plainFunc]
  rfl

/-- The paths without arguments that a hook looks for, and what it puts below `rt` for each. -/
def plainTargets : List (List Ident × Ident) :=
  [(["tokio", "spawn"], "spawn_task"), (["tokio", "task", "spawn"], "spawn_task"), (["std", "thread", "spawn"], "spawn"),
    (["thread", "spawn"], "spawn"), (["tokio", "select"], "laplace_select")]

/-- The rewriters, by what they make of a path. -/
inductive Rewrites (path : Path α) : Path α → Prop where
  | plain {idents : List Ident} {target : Ident} (known : (idents, target) ∈ plainTargets)
      (matched : path.isPlain idents = true) : Rewrites path (rtPath [.plain target])
  | stdConstructor {rewritten : Path α} (matched : rewriteStdSyncConstructorPath path = some rewritten) :
      Rewrites path rewritten
  | tokioConstructor {rewritten : Path α} (matched : rewriteTokioSyncConstructorPath path = some rewritten) :
      Rewrites path rewritten
  | channelConstructor {rewritten : Path α} (matched : rewriteTokioSyncChannelConstructorPath path = some rewritten) :
      Rewrites path rewritten
  | timeFn {rewritten : Path α} (matched : rewriteTokioTimeFnPath path = some rewritten) : Rewrites path rewritten
  | stdType {rewritten : Path α} (matched : rewriteStdSyncTypePath path = some rewritten) : Rewrites path rewritten
  | tokioType {rewritten : Path α} (matched : rewriteTokioSyncTypePath path = some rewritten) : Rewrites path rewritten
  | channelType {rewritten : Path α} (matched : rewriteTokioSyncChannelTypePath path = some rewritten) :
      Rewrites path rewritten
  | timeType {rewritten : Path α} (matched : rewriteTokioTimeTypePath path = some rewritten) : Rewrites path rewritten

/-- What every replacement of a matcher chain satisfies, from its first rewriter and the rest of the chain. -/
theorem Outcome.orElse_replaced {holds : Path α → Prop} {rewritten : Option (Path α)} {otherwise : Outcome α}
    (here : ∀ path, rewritten = some path → holds path) (later : ∀ path, otherwise = .replaced path → holds path) :
    ∀ path, Outcome.orElse rewritten otherwise = .replaced path → holds path := by
  intro path replaced
  cases rewritten with
  | none => exact later path replaced
  | some found => exact here path (congrArg some (Outcome.replaced.inj replaced))

theorem Outcome.ofClass_replaced {holds : Path α → Prop} (primitive : Option Unmodeled) :
    ∀ path, (Outcome.ofClass primitive : Outcome α) = .replaced path → holds path := by
  intro path replaced
  cases primitive <;> exact absurd replaced (by simp [ofClass])

/-- A replacement is the work of a rewriter. -/
theorem outcome_rewrites {options : ModelRewriteOptions} {position : Position} {path rewritten : Path α}
    (replaced : outcome options position path = .replaced rewritten) : Rewrites path rewritten := by
  cases position with
  | call =>
    simp only [outcome, callOutcome] at replaced
    split_ifs at replaced with tasks spawn
    · obtain rfl := Outcome.replaced.inj replaced
      simp only [Bool.and_eq_true, isTokioSpawnPath, Bool.or_eq_true] at tasks
      rcases tasks.2 with matched | matched
      · exact .plain (by decide) matched
      · exact .plain (by decide) matched
    · obtain rfl := Outcome.replaced.inj replaced
      rw [isSupportedSpawnPath, Bool.or_eq_true] at spawn
      rcases spawn with matched | matched
      · exact .plain (by decide) matched
      · exact .plain (by decide) matched
    · refine Outcome.orElse_replaced (fun _ => .stdConstructor) ?_ rewritten replaced
      refine Outcome.orElse_replaced (fun _ => .tokioConstructor) ?_
      refine Outcome.orElse_replaced (fun _ => .channelConstructor) ?_
      exact Outcome.orElse_replaced (fun _ => .timeFn) (Outcome.ofClass_replaced _)
  | type =>
    refine Outcome.orElse_replaced (fun _ => .stdType) ?_ rewritten replaced
    refine Outcome.orElse_replaced (fun _ => .tokioType) ?_
    refine Outcome.orElse_replaced (fun _ => .channelType) ?_
    exact Outcome.orElse_replaced (fun _ => .timeType) (Outcome.ofClass_replaced _)
  | macroName =>
    simp only [outcome, macroOutcome] at replaced
    split_ifs at replaced with select
    obtain rfl := Outcome.replaced.inj replaced
    exact .plain (by decide) select

theorem outcome_carried (options : ModelRewriteOptions) (position : Position) {path rewritten : Path α}
    (replaced : outcome options position path = .replaced rewritten) : rewritten.carried = path.carried := by
  have lock (target : Ident) (arguments : PathArguments α) :
      (modelPath target arguments none).carried = arguments.carried := by
    simp only [Path.carried, modelPath, rtPath, PathSegment.plain, Option.toList, List.flatMap_cons,
      List.flatMap_nil, List.append_nil]
    rfl
  have time (target : Ident) (arguments : PathArguments α) :
      (rtPath [.plain "time", ⟨target, arguments⟩]).carried = arguments.carried := by
    simp only [Path.carried, rtPath, PathSegment.plain, List.flatMap_cons, List.flatMap_nil, List.append_nil]
    rfl
  cases outcome_rewrites replaced with
  | plain known matched =>
    rw [Path.carried_of_isPlain matched]
    rfl
  | stdConstructor matched | tokioConstructor matched => exact rewriteConstructorPath_carried matched
  | channelConstructor matched | channelType matched => exact rewriteChannelPath_carried matched
  | timeFn matched => exact rewriteTokioTimeFnPath_carried matched
  | stdType matched | tokioType matched => exact rewriteTypePath_carried lock matched
  | timeType matched => exact rewriteTypePath_carried time matched

/-- Every alias names a path below `tokio`. -/
def Aliases.Rooted (aliases : Aliases) : Prop :=
  ∀ binding canonical, aliases binding = some canonical → canonical.head? = some "tokio"

/-- The arguments of an expanded segment move to the end of its expansion. -/
theorem effectivePath_carried {aliases : Aliases} (rooted : aliases.Rooted) (path : Path α) :
    (effectivePath aliases path).carried = path.carried := by
  obtain ⟨leadingColon, segments⟩ := path
  cases segments with
  | nil => rfl
  | cons first rest =>
    cases bound : aliases first.ident with
    | none => simp only [effectivePath, canonicalize, bound, Option.map_none, Option.getD_none]
    | some canonical =>
      have nonempty : canonical ≠ [] := by
        rintro rfl
        exact absurd (rooted _ _ bound) (by simp)
      have plain : (canonical.dropLast.map .plain : List (PathSegment α)).flatMap
          (fun segment => segment.arguments.carried) = [] := by
        refine List.flatMap_eq_nil_iff.mpr fun segment member => ?_
        obtain ⟨ident, -, rfl⟩ := List.mem_map.mp member
        rfl
      simp only [effectivePath, canonicalize, bound, Option.map_some, Option.getD_some, Path.carried,
        List.getLast?_eq_some_getLast nonempty, Option.toList, List.flatMap_append, plain, List.flatMap_cons,
        List.flatMap_nil, List.nil_append, List.append_nil]

/-- The identifiers a path has after its first one is expanded. -/
theorem effectivePath_idents (aliases : Aliases) (path : Path α) :
    (effectivePath aliases path).idents = match path.idents with
      | [] => []
      | first :: rest => match aliases first with
        | some canonical => canonical ++ rest
        | none => first :: rest := by
  obtain ⟨leadingColon, segments⟩ := path
  cases segments with
  | nil => rfl
  | cons first rest =>
    simp only [Path.idents, List.map_cons]
    cases bound : aliases first.ident with
    | none => simp only [effectivePath, canonicalize, bound, Option.map_none, Option.getD_none, List.map_cons]
    | some canonical =>
      simp only [effectivePath, canonicalize, bound, Option.map_some, Option.getD_some, List.map_append,
        List.map_map]
      congr 1
      cases canonical using List.reverseRecOn with
      | nil => rfl
      | append_singleton lead last =>
        simp only [List.dropLast_concat, List.getLast?_concat, Option.map_some, Option.toList, List.map_cons,
          List.map_nil]
        congr 1
        exact List.map_id lead

/-- A path is expanded to one below `tokio`, or stands as it was. -/
theorem effectivePath_idents_cases {aliases : Aliases} (rooted : aliases.Rooted) (path : Path α) :
    (effectivePath aliases path).idents = path.idents ∨
      (effectivePath aliases path).idents.head? = some "tokio" := by
  rw [effectivePath_idents]
  cases named : path.idents with
  | nil => exact .inl rfl
  | cons first rest =>
    cases bound : aliases first with
    | none => exact .inl (by simp only [bound])
    | some canonical =>
      right
      have isRoot := rooted first canonical bound
      cases canonical with
      | nil => cases isRoot
      | cons head more => simpa only [bound, List.cons_append, List.head?_cons] using isRoot

/-- Expanding the first identifier keeps the others. -/
theorem mem_effectivePath_idents {aliases : Aliases} {path : Path α} {first ident : Ident} {rest : List Ident}
    (named : path.idents = first :: rest) (member : ident ∈ rest) : ident ∈ (effectivePath aliases path).idents := by
  rw [effectivePath_idents, named]
  cases bound : aliases first with
  | none =>
    simp only [bound]
    exact List.mem_cons_of_mem _ member
  | some canonical =>
    simp only [bound]
    exact List.mem_append_right _ member

/-- A treated path carries the arguments that it had. -/
theorem ModelRewrite.treat_carried {rewrite : ModelRewrite} (rooted : rewrite.aliases.Rooted) (position : Position)
    (path : Path α) : ((rewrite.treat position path).path path).carried = path.carried := by
  cases treated : rewrite.treat position path with
  | replaced rewritten =>
    rw [Outcome.path, outcome_carried rewrite.options position treated, effectivePath_carried rooted]
  | flagged | untouched => rfl

theorem ModelRewrite.treat_nodes {rewrite : ModelRewrite} (rooted : rewrite.aliases.Rooted) (position : Position)
    (path : Path α) : ((rewrite.treat position path).path path).nodes = path.nodes := by
  rw [Path.nodes_eq_carried, ModelRewrite.treat_carried rooted, Path.nodes_eq_carried]

end Laplace.Model
