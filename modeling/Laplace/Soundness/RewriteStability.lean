import Laplace.Soundness.Coverage
import Laplace.Soundness.ModuleCoverage

/-! # A second rewrite

A function of an annotated module that is annotated itself is rewritten twice, the second time without the imports
of its module. The `::laplace_sdk::rt` paths of the first rewrite are never replaced again, but they are classified
again, and a channel of `mpsc` is then taken for one that is not modeled.
-/

namespace Laplace.Soundness

open Model

/-! ## Model paths -/

/-- The identifiers of replacements. -/
def targetIdents : List Ident :=
  ["laplace_sdk", "rt", "spawn", "spawn_task", "ModelMutex", "ModelRwLock", "ModelAsyncMutex", "ModelAsyncRwLock",
    "ModelAsyncSemaphore", "ModelAsyncNotify", "new", "const_new", "mpsc", "oneshot", "watch", "broadcast", "channel",
    "unbounded_channel", "Sender", "Receiver", "UnboundedSender", "UnboundedReceiver", "Ref", "time", "sleep",
    "timeout", "interval", "Sleep", "Timeout", "Interval", "laplace_select"]

/-- A replacement is made of these identifiers, and names `mpsc` exactly if the matched path does. -/
def Targets (path rewritten : Path Unit) : Prop :=
  rewritten.idents ⊆ targetIdents ∧ ("mpsc" ∈ rewritten.idents ↔ "mpsc" ∈ path.idents)

/-- Targets that stand below `rt`, after segments that are not `mpsc`. -/
theorem targets_of_idents {path rewritten : Path Unit} {target : List Ident} (named : rewritten.idents = rtIdents target)
    (known : target ⊆ targetIdents) (same : "mpsc" ∈ target ↔ "mpsc" ∈ path.idents) : Targets path rewritten := by
  rw [Targets, named]
  constructor
  · exact List.cons_subset.mpr ⟨by decide, List.cons_subset.mpr ⟨by decide, known⟩⟩
  · simpa [rtIdents] using same

theorem targets_of_isPlain {path : Path Unit} {idents : List Ident} (plain : path.isPlain idents = true)
    (others : "mpsc" ∉ idents) {target : Ident} (known : target ∈ targetIdents) (other : "mpsc" ≠ target) :
    Targets path (rtPath [.plain target]) := by
  rw [Path.isPlain, Bool.and_eq_true, beq_iff_eq] at plain
  apply targets_of_idents (rtPath_idents _)
  · exact List.cons_subset.mpr ⟨known, List.nil_subset _⟩
  · rw [plain.2]
    simp [PathSegment.plain, other, others]

/-- A table of types or functions has its targets among the identifiers, and `mpsc` on neither side. -/
def Tabled (targetFor : Ident → Option Ident) : Prop :=
  ∀ name target, targetFor name = some target → target ∈ targetIdents ∧ "mpsc" ≠ target ∧ "mpsc" ≠ name

theorem targets_of_type {root module : Ident} {targetFor : Ident → Option Ident}
    {build : Ident → PathArguments Unit → Path Unit} (roots : "mpsc" ∉ [root, module]) (tabled : Tabled targetFor)
    {lead : List Ident} (leads : lead ⊆ targetIdents) (noLead : "mpsc" ∉ lead)
    (built : ∀ target arguments, (build target arguments).idents = rtIdents (lead ++ [target]))
    {path rewritten : Path Unit} (matched : rewriteTypePath root module targetFor build path = some rewritten) :
    Targets path rewritten := by
  obtain ⟨ty, target, named, found, rfl⟩ := rewriteTypePath_inv matched
  obtain ⟨known, other, otherTy⟩ := tabled ty target found
  apply targets_of_idents (built target _)
  · exact List.append_subset.mpr ⟨leads, List.cons_subset.mpr ⟨known, List.nil_subset _⟩⟩
  · rw [named]
    simp only [List.mem_cons, List.not_mem_nil, or_false, not_or] at roots
    simp [noLead, other, otherTy, roots]

theorem targets_of_constructor {root module : Ident} {targetFor : Ident → Option Ident} {methods : List Ident}
    (roots : "mpsc" ∉ [root, module]) (tabled : Tabled targetFor) (known : methods ⊆ targetIdents)
    (others : "mpsc" ∉ methods) {path rewritten : Path Unit}
    (matched : rewriteConstructorPath root module targetFor methods path = some rewritten) :
    Targets path rewritten := by
  obtain ⟨ty, method, target, named, found, member, rfl⟩ := rewriteConstructorPath_inv matched
  obtain ⟨knownTarget, other, otherTy⟩ := tabled ty target found
  have otherMethod : "mpsc" ≠ method := fun same => others (same ▸ member)
  apply targets_of_idents (rtPath_idents _)
  · simp only [Option.toList, PathSegment.plain, List.map_cons, List.map_nil]
    exact List.cons_subset.mpr ⟨knownTarget, List.cons_subset.mpr ⟨known member, List.nil_subset _⟩⟩
  · rw [named]
    simp only [List.mem_cons, List.not_mem_nil, or_false, not_or] at roots
    simp [PathSegment.plain, other, otherTy, otherMethod, roots]

theorem targets_of_channel {targetFor : Ident → Ident → Option (Ident × Ident)}
    (tabled : ∀ module name target, targetFor module name = some target →
      target = (module, name) ∧ [module, name] ⊆ targetIdents)
    {path rewritten : Path Unit} (matched : rewriteChannelPath targetFor path = some rewritten) :
    Targets path rewritten := by
  obtain ⟨module, name, target, named, found, rfl⟩ := rewriteChannelPath_inv matched
  obtain ⟨rfl, known⟩ := tabled module name target found
  apply targets_of_idents (rtPath_idents _)
  · exact known
  · rw [named]
    simp [PathSegment.plain]

theorem targets_of_timeFn {path rewritten : Path Unit} (tabled : Tabled timeFnTargetFor)
    (matched : rewriteTokioTimeFnPath path = some rewritten) : Targets path rewritten := by
  obtain ⟨func, target, named, found, rfl⟩ := rewriteTokioTimeFnPath_inv matched
  obtain ⟨known, other, otherFunc⟩ := tabled func target found
  apply targets_of_idents (rtPath_idents _)
  · simp only [PathSegment.plain, List.map_cons, List.map_nil]
    exact List.cons_subset.mpr ⟨by decide, List.cons_subset.mpr ⟨known, List.nil_subset _⟩⟩
  · rw [named]
    simp [PathSegment.plain, other, otherFunc]

theorem outcome_targets {options : ModelRewriteOptions} {position : Position} {path rewritten : Path Unit}
    (replaced : outcome options position path = .replaced rewritten) : Targets path rewritten := by
  have std : Tabled modelTargetFor := by
    intro name target found
    unfold modelTargetFor at found
    split_ifs at found <;> cases found <;> subst_vars <;> decide
  have tokio : Tabled tokioModelTargetFor := by
    intro name target found
    unfold tokioModelTargetFor at found
    split_ifs at found <;> cases found <;> subst_vars <;> decide
  have channelFn (module name : Ident) (target : Ident × Ident)
      (found : tokioChannelFnTargetFor module name = some target) :
      target = (module, name) ∧ [module, name] ⊆ targetIdents := by
    unfold tokioChannelFnTargetFor at found
    split at found <;> cases found <;> decide
  have channelType (module name : Ident) (target : Ident × Ident)
      (found : tokioChannelTypeTargetFor module name = some target) :
      target = (module, name) ∧ [module, name] ⊆ targetIdents := by
    unfold tokioChannelTypeTargetFor at found
    split at found <;> cases found <;> decide
  have timeFn : Tabled timeFnTargetFor := by
    intro name target found
    unfold timeFnTargetFor at found
    split_ifs at found <;> cases found <;> subst_vars <;> decide
  have timeType : Tabled timeTypeTargetFor := by
    intro name target found
    unfold timeTypeTargetFor at found
    split_ifs at found <;> cases found <;> subst_vars <;> decide
  cases outcome_rewrites replaced with
  | plain known matched =>
    have plain : ∀ pair ∈ plainTargets, "mpsc" ∉ pair.1 ∧ pair.2 ∈ targetIdents ∧ "mpsc" ≠ pair.2 := by decide
    obtain ⟨others, target, other⟩ := plain _ known
    exact targets_of_isPlain matched others target other
  | stdConstructor matched => exact targets_of_constructor (by decide) std (by decide) (by decide) matched
  | tokioConstructor matched => exact targets_of_constructor (by decide) tokio (by decide) (by decide) matched
  | channelConstructor matched => exact targets_of_channel channelFn matched
  | timeFn matched => exact targets_of_timeFn timeFn matched
  | stdType matched =>
    exact targets_of_type (by decide) std (List.nil_subset _) List.not_mem_nil (fun _ _ => rfl) matched
  | tokioType matched =>
    exact targets_of_type (by decide) tokio (List.nil_subset _) List.not_mem_nil (fun _ _ => rfl) matched
  | channelType matched => exact targets_of_channel channelType matched
  | timeType matched =>
    have leads : ["time"] ⊆ targetIdents := by decide
    exact targets_of_type (by decide) timeType leads (by decide) (fun _ _ => rfl) matched

/-- A model path is a channel to the classifier if it names `mpsc`, and nothing otherwise. -/
theorem classifyUnmodeled_target {path : Path Unit} {rest : List Ident} (named : path.idents = "laplace_sdk" :: rest)
    (known : path.idents ⊆ targetIdents) :
    classifyUnmodeled path = if "mpsc" ∈ path.idents then some .channel else none := by
  have unplain (idents : List Ident) (other : idents.head? ≠ some "laplace_sdk") : path.isPlain idents = false := by
    rw [Path.isPlain, Bool.and_eq_false_iff]
    right
    rw [beq_eq_false_iff_ne]
    rintro rfl
    rw [named] at other
    exact other rfl
  have time : classifyTokioTimeUnmodeled path = none := by
    rw [classifyTokioTimeUnmodeled_eq, named]
    rcases rest with _ | ⟨second, _ | ⟨third, rest⟩⟩ <;> simp
  have spawn : (isTokioSpawnPath path || isUnmodeledTokioSpawnPath path) = false := by
    simp only [isTokioSpawnPath, isUnmodeledTokioSpawnPath, Bool.or_eq_false_iff]
    exact ⟨⟨unplain _ (by decide), unplain _ (by decide)⟩, unplain _ (by decide), unplain _ (by decide)⟩
  have arcSwap : classifyArcSwapUnmodeled path = none := by
    rw [classifyArcSwapUnmodeled_eq, named]
    simp
  have condvar : "Condvar" ∉ path.idents := fun member => absurd (known member) (by decide)
  have atomic : (path.idents.any fun ident => ident == "atomic" || isKnownAtomicType ident) = false := by
    rw [List.any_eq_false]
    intro ident member
    have all : ∀ ident ∈ targetIdents, ¬(ident == "atomic" || isKnownAtomicType ident) = true := by decide
    exact all ident (known member)
  simp only [classifyUnmodeled, time, spawn, arcSwap, List.contains_iff_mem, condvar, atomic, Bool.false_eq_true,
    ↓reduceIte]

/-! ## A visit that replaces nothing -/

/-- No site has a path that the rewrite replaces. -/
def Still (rewrite : ModelRewrite) (sites : List Site) : Prop :=
  ∀ site ∈ sites, ∀ rewritten, rewrite.treat site.occurrence.position site.occurrence.path ≠ .replaced rewritten

section Visitor

variable {rewrite : ModelRewrite}

@[simp] theorem still_append (first second : List Site) :
    Still rewrite (first ++ second) ↔ Still rewrite first ∧ Still rewrite second := by
  simp only [Still, List.mem_append, or_imp, forall_and]

theorem treat_still {scope : Scope} {position : Position} {path : Path Node}
    (still : Still rewrite (scope.site position path)) : (rewrite.treat position path).path path = path := by
  have kept := still _ List.mem_cons_self
  cases treated : rewrite.treat position path with
  | replaced rewritten =>
    have shape := ModelRewrite.treat_shape rewrite position path
    rw [treated] at shape
    exact absurd shape (kept rewritten.shape)
  | flagged | untouched => rfl

theorem visitExprCall_still {scope : Scope} {func : Node} (still : Still rewrite (scope.callee func)) (args : List Node) :
    (rewrite.visitExprCall func args).1 = .exprCall func args := by
  cases func with
  | exprPath qself path =>
    rw [ModelRewrite.visitExprCall]
    simp only [treat_still still]
  | exprCall | typePath | macroCall | wild | block | other => rfl

mutual
theorem visitNode_still (untasked : rewrite.options.tasks = false) (scope : Scope) (node : Node)
    (still : Still rewrite (sitesNode scope node)) : (visitNode rewrite false node).1 = node := by
  cases node with
  | exprPath qself path =>
    simp only [sitesNode, still_append] at still
    simp only [visitNode, visitOption_still untasked scope qself still.1, visitPath_still untasked scope path still.2]
  | exprCall func args =>
    simp only [sitesNode, still_append] at still
    obtain ⟨⟨function, arguments⟩, callee⟩ := still
    simp only [visitNode, Bool.false_eq_true, ↓reduceIte, visitNode_still untasked scope func function,
      visitNodes_still untasked scope args arguments, visitExprCall_still callee]
  | typePath qself path =>
    simp only [sitesNode, still_append] at still
    obtain ⟨⟨self, inner⟩, site⟩ := still
    simp only [visitNode, visitOption_still untasked scope qself self, visitPath_still untasked scope path inner,
      treat_still site]
  | macroCall path tokens =>
    simp only [sitesNode, still_append] at still
    simp only [visitNode, visitPath_still untasked scope path still.1, treat_still still.2]
  | wild => rfl
  | block text stmts => simp only [visitNode, visitStmts_still untasked (scope.block stmts) stmts still]
  | other text children => simp only [visitNode, visitNodes_still untasked scope children still]

theorem visitOption_still (untasked : rewrite.options.tasks = false) (scope : Scope) (node : Option Node)
    (still : Still rewrite (sitesOption scope node)) : (visitOption rewrite false node).1 = node := by
  cases node with
  | none => rfl
  | some node => simp only [visitOption, visitNode_still untasked scope node still]

theorem visitNodes_still (untasked : rewrite.options.tasks = false) (scope : Scope) (nodes : List Node)
    (still : Still rewrite (sitesNodes scope nodes)) : (visitNodes rewrite nodes).1 = nodes := by
  cases nodes with
  | nil => rfl
  | cons node rest =>
    simp only [sitesNodes, still_append] at still
    simp only [visitNodes, visitNode_still untasked scope node still.1, visitNodes_still untasked scope rest still.2]

theorem visitPath_still (untasked : rewrite.options.tasks = false) (scope : Scope) (path : Path Node)
    (still : Still rewrite (sitesPath scope path)) : (visitPath rewrite path).1 = path := by
  cases path with
  | mk leadingColon segments => simp only [visitPath, visitSegments_still untasked scope segments still]

theorem visitSegments_still (untasked : rewrite.options.tasks = false) (scope : Scope)
    (segments : List (PathSegment Node)) (still : Still rewrite (sitesSegments scope segments)) :
    (visitSegments rewrite segments).1 = segments := by
  match segments with
  | [] => rfl
  | ⟨ident, arguments⟩ :: rest =>
    simp only [sitesSegments, still_append] at still
    simp only [visitSegments, visitArguments_still untasked scope arguments still.1,
      visitSegments_still untasked scope rest still.2]

theorem visitArguments_still (untasked : rewrite.options.tasks = false) (scope : Scope)
    (arguments : PathArguments Node) (still : Still rewrite (sitesArguments scope arguments)) :
    (visitArguments rewrite arguments).1 = arguments := by
  cases arguments with
  | none => rfl
  | angleBracketed args => simp only [visitArguments, visitNodes_still untasked scope args still]
  | parenthesized args => simp only [visitArguments, visitNodes_still untasked scope args still]

theorem visitStmt_still (untasked : rewrite.options.tasks = false) (scope : Scope) (stmt : Stmt)
    (still : Still rewrite (sitesStmt scope stmt)) : (visitStmt rewrite stmt).1 = stmt := by
  cases stmt with
  | «local» pat init diverge =>
    simp only [sitesStmt, still_append] at still
    obtain ⟨⟨pattern, value⟩, otherwise⟩ := still
    simp only [visitStmt, untasked, Bool.false_and, visitNode_still untasked scope pat pattern,
      visitOption_still untasked scope init value, visitOption_still untasked scope diverge otherwise]
  | item item => simp only [visitStmt, visitItem_still untasked scope item still]
  | expr expr semi => simp only [visitStmt, untasked, Bool.false_and, visitNode_still untasked scope expr still]
  | macroCall path tokens =>
    simp only [sitesStmt, still_append] at still
    simp only [visitStmt, visitPath_still untasked scope path still.1, treat_still still.2]

theorem visitStmts_still (untasked : rewrite.options.tasks = false) (scope : Scope) (stmts : List Stmt)
    (still : Still rewrite (sitesStmts scope stmts)) : (visitStmts rewrite stmts).1 = stmts := by
  cases stmts with
  | nil => rfl
  | cons stmt rest =>
    simp only [sitesStmts, still_append] at still
    simp only [visitStmts, visitStmt_still untasked scope stmt still.1, visitStmts_still untasked scope rest still.2]

theorem visitItem_still (untasked : rewrite.options.tasks = false) (scope : Scope) (item : Item)
    (still : Still rewrite (sitesItem scope item)) : (visitItem rewrite item).1 = item := by
  match item with
  | .use tree => rfl
  | .externCrate ident rename => rfl
  | .fn ident signature stmts =>
    simp only [sitesItem, still_append] at still
    simp only [visitItem, visitNodes_still untasked scope signature still.1,
      visitStmts_still untasked (scope.body stmts) stmts still.2]
  | .mod ident none => rfl
  | .mod ident (some items) => simp only [visitItem, visitItems_still untasked (scope.module items) items still]
  | .impl header items =>
    simp only [sitesItem, still_append] at still
    simp only [visitItem, visitNodes_still untasked scope header still.1, visitItems_still untasked scope items still.2]
  | .trait ident header items =>
    simp only [sitesItem, still_append] at still
    simp only [visitItem, visitNodes_still untasked scope header still.1, visitItems_still untasked scope items still.2]
  | .named kind ident children => simp only [visitItem, visitNodes_still untasked scope children still]
  | .macroCall ident path tokens =>
    simp only [sitesItem, still_append] at still
    simp only [visitItem, visitPath_still untasked scope path still.1, treat_still still.2]
  | .other text children => simp only [visitItem, visitNodes_still untasked scope children still]

theorem visitItems_still (untasked : rewrite.options.tasks = false) (scope : Scope) (items : List Item)
    (still : Still rewrite (sitesItems scope items)) : (visitItems rewrite items).1 = items := by
  cases items with
  | nil => rfl
  | cons item rest =>
    simp only [sitesItems, still_append] at still
    simp only [visitItems, visitItem_still untasked scope item still.1, visitItems_still untasked scope rest still.2]
end

/-- Sites whose paths are as they were are sites where nothing was replaced. -/
theorem still_of_rewritten {sites : List Site}
    (same : sites.map (fun site => site.occurrence.rewritten rewrite) = sites.map Site.occurrence) :
    Still rewrite sites := by
  intro site member rewritten replaced
  have here := List.map_inj_left.mp same site member
  have path := congrArg Occurrence.path here
  rw [Occurrence.rewritten, replaced] at path
  exact treat_replaced_ne replaced path

end Visitor

/-! ## The second rewrite of a function -/

/-- The imports in the body of a function: all that a rewrite of the function alone sees. -/
def ownAliases (func : ItemFn) : Aliases := scanUseAliasesStmts func.stmts

theorem items_visited (rewrite : ModelRewrite) (stmts : List Stmt) :
    (visitStmts rewrite stmts).1.filterMap Stmt.item? =
      (stmts.filterMap Stmt.item?).map fun item => (visitItem rewrite item).1 := by
  induction stmts with
  | nil => rfl
  | cons stmt rest ih =>
    rw [visitStmts]
    cases stmt with
    | item item => exact congrArg (List.cons _) ih
    | «local» | expr | macroCall => exact ih

theorem items_markers (primitives : List Unmodeled) (stmts : List Stmt) :
    (primitives.map markerStmt ++ stmts).filterMap Stmt.item? = stmts.filterMap Stmt.item? := by
  induction primitives with
  | nil => rfl
  | cons primitive rest ih => exact ih

/-- A rewrite leaves the imports of a body, and the names of its items. -/
theorem ownAliases_rewritten (base : Aliases) (func : ItemFn) :
    ownAliases (applyModelRewriteWithBaseAliases func base {}) = ownAliases func := by
  rw [ownAliases, ownAliases, scanUseAliasesStmts, scanUseAliasesStmts, applyModelRewriteWithBaseAliases,
    injectUnmodeledMarkers, items_markers, items_visited]
  apply scanUseAliasesItems_map
  · intro item
    cases item with
    | mod ident content => cases content <;> rfl
    | fn | use | externCrate | impl | trait | named | macroCall | other => rfl
  · intro item
    cases item with
    | mod ident content => cases content <;> rfl
    | fn | use | externCrate | impl | trait | named | macroCall | other => rfl

theorem mergeAliases_empty (overlay : Aliases) : mergeAliases Aliases.empty overlay = overlay := by
  funext binding
  exact Option.or_none

/-- The rewrite that a function is visited with for the second time. -/
theorem fnRewrite_rewritten (base : Aliases) (func : ItemFn) :
    fnRewrite Aliases.empty (applyModelRewriteWithBaseAliases func base {}) = ⟨ownAliases func, {}⟩ := by
  rw [fnRewrite, mergeAliases_empty]
  exact congrArg (ModelRewrite.mk · {}) (ownAliases_rewritten base func)

/-- The second rewrite changes no path, and adds no marker that the first did not. -/
structure Stable (func first second : ItemFn) : Prop where
  signature : second.signature = first.signature
  stmts : second.stmts = prependedStmts first second ++ first.stmts
  markers : ∀ primitive, markerStmt primitive ∈ prependedStmts first second →
    markerStmt primitive ∈ prependedStmts func first

/-- The primitive of some callee or type that no rewriter matches. -/
def Announced (base : Aliases) (func : ItemFn) (primitive : Unmodeled) : Prop :=
  ∃ site ∈ fnSites {} func, site.occurrence.position ≠ .macroName ∧
    (∀ rewritten, (fnRewrite base func).treat site.occurrence.position site.occurrence.path ≠ .replaced rewritten) ∧
    classifyUnmodeled (effectivePath (fnRewrite base func).aliases site.occurrence.path) = some primitive

theorem mem_flags_outcome {options : ModelRewriteOptions} {position : Position} {path : Path Unit}
    {primitive : Unmodeled} : primitive ∈ (outcome options position path).flags ↔
      position ≠ .macroName ∧ (∀ rewritten, outcome options position path ≠ .replaced rewritten) ∧
        classifyUnmodeled path = some primitive := by
  by_cases kept : ∀ rewritten, outcome options position path ≠ .replaced rewritten
  · rw [outcome_of_not_replaced kept]
    cases position with
    | macroName => simp [classOutcome, Outcome.flags]
    | call | type =>
      cases classified : classifyUnmodeled path with
      | none => simp [classOutcome, classified, Outcome.ofClass, Outcome.flags]
      | some other => simp [classOutcome, classified, Outcome.ofClass, Outcome.flags, eq_comm]
  · simp only [kept, false_and, and_false, iff_false]
    simp only [not_forall, not_not] at kept
    obtain ⟨rewritten, replaced⟩ := kept
    rw [replaced]
    exact List.not_mem_nil

/-- The markers of the first rewrite are those of the recorded primitives. -/
theorem announced_iff {base : Aliases} {func : ItemFn} {primitive : Unmodeled} :
    Announced base func primitive ↔ ∃ site ∈ fnSites {} func, primitive ∈ site.flags (fnRewrite base func) := by
  simp only [Announced, Site.flags, ModelRewrite.treat, mem_flags_outcome]

theorem forall_rewritten {base : Aliases} (rooted : base.Rooted) (func : ItemFn) (holds : Occurrence → Prop) :
    (∀ site ∈ fnSites {} (applyModelRewriteWithBaseAliases func base {}), holds site.occurrence) ↔
      ∀ site ∈ fnSites {} func, holds (site.occurrence.rewritten (fnRewrite base func)) := by
  have mapped := fnSites_rewritten rooted {} {} func
  rw [← List.forall_mem_map, mapped, List.forall_mem_map]

/-- The second rewrite of a function visits what the first one left. -/
theorem stable_iff_still {base : Aliases} (func : ItemFn) :
    Stable func (applyModelRewriteWithBaseAliases func base {})
        (applyModelRewrite (applyModelRewriteWithBaseAliases func base {})) ↔
      Still ⟨ownAliases func, {}⟩ (fnSites {} (applyModelRewriteWithBaseAliases func base {})) ∧
      ∀ site ∈ fnSites {} (applyModelRewriteWithBaseAliases func base {}),
        ∀ primitive ∈ site.flags ⟨ownAliases func, {}⟩, Announced base func primitive := by
  have rooted : (ModelRewrite.mk (ownAliases func) {}).aliases.Rooted := scanUseAliasesItems_rooted _
  have alone := fnRewrite_rewritten base func
  have before (primitive : Unmodeled) : markerStmt primitive ∈
      prependedStmts func (applyModelRewriteWithBaseAliases func base {}) ↔ Announced base func primitive :=
    (markerStmt_prepended_iff base {} func primitive).trans announced_iff.symm
  generalize applyModelRewriteWithBaseAliases func base {} = first at alone before ⊢
  have signature : (applyModelRewrite first).signature = (visitNodes ⟨ownAliases func, {}⟩ first.signature).1 := by
    rw [← alone]
    rfl
  have stmts : (applyModelRewrite first).stmts =
      prependedStmts first (applyModelRewrite first) ++ (visitStmts ⟨ownAliases func, {}⟩ first.stmts).1 := by
    rw [← alone]
    exact congrArg (· ++ _) (prependedStmts_eq Aliases.empty first).symm
  have after (primitive : Unmodeled) : markerStmt primitive ∈ prependedStmts first (applyModelRewrite first) ↔
      ∃ site ∈ fnSites {} first, primitive ∈ site.flags ⟨ownAliases func, {}⟩ := by
    rw [← alone]
    exact markerStmt_prepended_iff Aliases.empty {} first primitive
  constructor
  · intro stable
    have sameSignature := signature.symm.trans stable.signature
    have sameStmts := List.append_cancel_left (stmts.symm.trans stable.stmts)
    constructor
    · rw [fnSites, still_append]
      constructor
      · apply still_of_rewritten
        have sites := visitNodes_sites rfl rooted {} {} first.signature
        rw [sameSignature] at sites
        exact sites.symm
      · apply still_of_rewritten
        have sites := visitStmts_sites rfl rooted (Scope.body {} first.stmts) (Scope.body {} first.stmts) first.stmts
        rw [sameStmts] at sites
        exact sites.symm
    · intro site member primitive flagged
      exact (before primitive).mp (stable.markers primitive ((after primitive).mpr ⟨site, member, flagged⟩))
  · rintro ⟨still, recorded⟩
    rw [fnSites, still_append] at still
    constructor
    · rw [signature]
      exact visitNodes_still rfl {} first.signature still.1
    · rw [stmts]
      congr 1
      exact visitStmts_still rfl (Scope.body {} first.stmts) first.stmts still.2
    · intro primitive marked
      obtain ⟨site, member, flagged⟩ := (after primitive).mp marked
      exact (before primitive).mpr (recorded site member primitive flagged)

/-! ## What the second rewrite makes of a path -/

/-- The path starts with a name that the imports of the module bind, and those of the function do not. -/
def BoundOutside (base : Aliases) (func : ItemFn) (path : Path Unit) : Prop :=
  ∃ first rest, path.idents = first :: rest ∧ ownAliases func first = none ∧ base first ≠ none

/-- What a replaced path is taken for: a channel if it names `mpsc`, or, where the function imports something as
`laplace_sdk`, the class of what the model path expands to. -/
def Reclassified (func : ItemFn) (effective rewritten : Path Unit) (primitive : Unmodeled) : Prop :=
  match ownAliases func "laplace_sdk" with
  | none => "mpsc" ∈ effective.idents ∧ primitive = .channel
  | some _ => classifyUnmodeled (effectivePath (ownAliases func) rewritten) = some primitive

/-- What the second rewrite would make of the path is made of it already. A replaced path is reclassified to
something recorded. A path that is left, and starts with a name of the module only, is without the module's imports
no path that a rewriter matches, and nothing that is not recorded. -/
structure Settles (base : Aliases) (func : ItemFn) (here : Occurrence) : Prop where
  replaced : here.position ≠ .macroName → ∀ rewritten,
    (fnRewrite base func).treat here.position here.path = .replaced rewritten →
    ∀ primitive, Reclassified func (effectivePath (fnRewrite base func).aliases here.path) rewritten primitive →
      Announced base func primitive
  left : (∀ rewritten, (fnRewrite base func).treat here.position here.path ≠ .replaced rewritten) →
    BoundOutside base func here.path →
    (∀ rewritten, outcome {} here.position here.path ≠ .replaced rewritten) ∧
      (here.position ≠ .macroName → ∀ primitive, classifyUnmodeled here.path = some primitive →
        Announced base func primitive)

/-- Without the imports of the module a path expands to what it did, or starts with a name of the module only and
does not expand. -/
theorem effectivePath_own (base : Aliases) (func : ItemFn) (path : Path Unit) :
    (BoundOutside base func path ∧ effectivePath (ownAliases func) path = path) ∨
      (¬ BoundOutside base func path ∧
        effectivePath (ownAliases func) path = effectivePath (fnRewrite base func).aliases path) := by
  obtain ⟨leadingColon, segments⟩ := path
  cases segments with
  | nil =>
    right
    constructor
    · rintro ⟨first, rest, named, -⟩
      cases named
    · rfl
  | cons first rest =>
    have merged : (fnRewrite base func).aliases first.ident = (ownAliases func first.ident).or (base first.ident) := rfl
    have outside : BoundOutside base func ⟨leadingColon, first :: rest⟩ ↔
        ownAliases func first.ident = none ∧ base first.ident ≠ none := by
      constructor
      · rintro ⟨other, others, named, unbound, bound⟩
        obtain ⟨rfl, -⟩ := List.cons.inj named
        exact ⟨unbound, bound⟩
      · rintro ⟨unbound, bound⟩
        exact ⟨first.ident, _, rfl, unbound, bound⟩
    rw [outside]
    cases own : ownAliases func first.ident with
    | some canonical =>
      right
      rw [own, Option.some_or] at merged
      exact ⟨fun both => (Option.some_ne_none _ both.1).elim, by simp only [effectivePath, canonicalize, own, merged]⟩
    | none =>
      have unexpanded : effectivePath (ownAliases func) ⟨leadingColon, first :: rest⟩ = ⟨leadingColon, first :: rest⟩ := by
        simp only [effectivePath, canonicalize, own, Option.map_none, Option.getD_none]
      cases outer : base first.ident with
      | some canonical =>
        left
        exact ⟨⟨rfl, Option.some_ne_none _⟩, unexpanded⟩
      | none =>
        right
        rw [own, outer, Option.none_or] at merged
        refine ⟨fun both => both.2 rfl, ?_⟩
        rw [unexpanded]
        simp only [effectivePath, canonicalize, merged, Option.map_none, Option.getD_none]

/-- A model path is not replaced again, whatever it expands to. -/
theorem treat_rewritten {base : Aliases} {func : ItemFn} {position : Position} {path rewritten : Path Unit}
    (replaced : (fnRewrite base func).treat position path = .replaced rewritten) :
    ∀ other, (ModelRewrite.mk (ownAliases func) {}).treat position rewritten ≠ .replaced other := by
  intro other
  obtain ⟨-, segments, same⟩ := outcome_replaced replaced
  have named : rewritten.idents = "laplace_sdk" :: "rt" :: segments.map fun segment => segment.ident := by
    rw [same]
    rfl
  rw [ModelRewrite.treat, outcome_of_mention (mem_effectivePath_idents named List.mem_cons_self) (by decide)]
  intro again
  cases position with
  | call | type =>
    simp only [classOutcome] at again
    cases classified : classifyUnmodeled (effectivePath (ownAliases func) rewritten) <;>
      simp [classified, Outcome.ofClass] at again
  | macroName => cases again

theorem reclassified_iff {base : Aliases} {func : ItemFn} {position : Position} {path rewritten : Path Unit}
    (replaced : (fnRewrite base func).treat position path = .replaced rewritten) (primitive : Unmodeled) :
    classifyUnmodeled (effectivePath (ownAliases func) rewritten) = some primitive ↔
      Reclassified func (effectivePath (fnRewrite base func).aliases path) rewritten primitive := by
  obtain ⟨known, mpsc⟩ := outcome_targets replaced
  obtain ⟨-, segments, same⟩ := outcome_replaced replaced
  have named : rewritten.idents = "laplace_sdk" :: "rt" :: segments.map fun segment => segment.ident := by
    rw [same]
    rfl
  rw [Reclassified]
  cases own : ownAliases func "laplace_sdk" with
  | some canonical => rfl
  | none =>
    have unexpanded : effectivePath (ownAliases func) rewritten = rewritten := by
      rw [same]
      simp only [effectivePath, canonicalize, rtPath, PathSegment.plain, own, Option.map_none, Option.getD_none]
    rw [unexpanded, classifyUnmodeled_target named known]
    by_cases channel : "mpsc" ∈ rewritten.idents
    · simp [channel, mpsc.mp channel, eq_comm]
    · simp [channel, mt mpsc.mpr channel]

/-- The second rewrite leaves the path of a site, and adds no marker for it. -/
def AtRest (base : Aliases) (func : ItemFn) (here : Occurrence) : Prop :=
  (∀ rewritten, (ModelRewrite.mk (ownAliases func) {}).treat here.position here.path ≠ .replaced rewritten) ∧
    ∀ primitive ∈ ((ModelRewrite.mk (ownAliases func) {}).treat here.position here.path).flags,
      Announced base func primitive

/-- A replaced path is not replaced again. -/
theorem atRest_replaced {base : Aliases} {func : ItemFn} {here : Occurrence} {rewritten : Path Unit}
    (replaced : (fnRewrite base func).treat here.position here.path = .replaced rewritten) :
    AtRest base func (here.rewritten (fnRewrite base func)) ↔ Settles base func here := by
  have kept := treat_rewritten replaced
  have flagged (primitive : Unmodeled) :
      primitive ∈ ((ModelRewrite.mk (ownAliases func) {}).treat here.position rewritten).flags ↔
        here.position ≠ .macroName ∧
          Reclassified func (effectivePath (fnRewrite base func).aliases here.path) rewritten primitive := by
    rw [ModelRewrite.treat, mem_flags_outcome, reclassified_iff replaced]
    exact and_congr_right' (and_iff_right kept)
  rw [AtRest, Occurrence.rewritten, replaced]
  simp only [Outcome.path, flagged]
  constructor
  · rintro ⟨-, recorded⟩
    constructor
    · intro place other same primitive named
      obtain rfl := Outcome.replaced.inj (replaced.symm.trans same)
      exact recorded primitive ⟨place, named⟩
    · intro left
      exact absurd replaced (left rewritten)
  · intro settles
    apply And.intro kept
    rintro primitive ⟨place, named⟩
    exact settles.replaced place rewritten replaced primitive named

/-- A path that is left and expands to what it did is left again, with the primitive it has recorded. -/
theorem atRest_left {base : Aliases} {func : ItemFn} {site : Site} (member : site ∈ fnSites {} func)
    (left : ∀ rewritten,
      (fnRewrite base func).treat site.occurrence.position site.occurrence.path ≠ .replaced rewritten) :
    AtRest base func (site.occurrence.rewritten (fnRewrite base func)) ↔ Settles base func site.occurrence := by
  have same : ((fnRewrite base func).treat site.occurrence.position site.occurrence.path).path site.occurrence.path =
      site.occurrence.path := by
    cases treated : (fnRewrite base func).treat site.occurrence.position site.occurrence.path with
    | replaced rewritten => exact absurd treated (left rewritten)
    | flagged | untouched => rfl
  rw [AtRest, Occurrence.rewritten, same]
  simp only [ModelRewrite.treat] at left ⊢
  rcases effectivePath_own base func site.occurrence.path with ⟨outside, unexpanded⟩ | ⟨inside, expanded⟩
  · simp only [unexpanded, mem_flags_outcome]
    constructor
    · rintro ⟨kept, recorded⟩
      constructor
      · intro _ rewritten replaced
        exact absurd replaced (left rewritten)
      · intro _ _
        exact ⟨kept, fun place primitive named => recorded primitive ⟨place, kept, named⟩⟩
    · intro settles
      obtain ⟨kept, recorded⟩ := settles.left left outside
      exact ⟨kept, fun primitive named => recorded named.1 primitive named.2.2⟩
  · rw [expanded]
    constructor
    · intro _
      constructor
      · intro _ rewritten replaced
        exact absurd replaced (left rewritten)
      · intro _ outside
        exact absurd outside inside
    · intro _
      apply And.intro left
      intro primitive flagged
      exact announced_iff.mpr ⟨site, member, flagged⟩

/-- **The second rewrite.** It changes nothing exactly if every path is settled. -/
theorem rewrite_stable_exact {base : Aliases} (rooted : base.Rooted) (func : ItemFn) :
    Stable func (applyModelRewriteWithBaseAliases func base {})
        (applyModelRewrite (applyModelRewriteWithBaseAliases func base {})) ↔
      ∀ site ∈ fnSites {} func, Settles base func site.occurrence := by
  have each : ∀ site ∈ fnSites {} func,
      (AtRest base func (site.occurrence.rewritten (fnRewrite base func)) ↔ Settles base func site.occurrence) := by
    intro site member
    by_cases left : ∀ rewritten,
        (fnRewrite base func).treat site.occurrence.position site.occurrence.path ≠ .replaced rewritten
    · exact atRest_left member left
    · simp only [not_forall, not_not] at left
      obtain ⟨rewritten, replaced⟩ := left
      exact atRest_replaced replaced
  rw [stable_iff_still, Still, ← forall₂_and]
  exact (forall_rewritten rooted func (AtRest base func)).trans (forall₂_congr each)

/-- `fn f() { tokio::sync::mpsc::channel(1); }` -/
def rewrittenChannel : ItemFn where
  ident := "f"
  signature := []
  stmts :=
    [.expr (.exprCall (.exprPath none ⟨false, [.plain "tokio", .plain "sync", .plain "mpsc", .plain "channel"]⟩)
      [.other "1" []]) true]

theorem rewrite_stable_exact_rewrittenChannel :
    Stable rewrittenChannel (applyModelRewrite rewrittenChannel)
        (applyModelRewrite (applyModelRewrite rewrittenChannel)) ↔
      ∀ site ∈ fnSites {} rewrittenChannel, Settles Aliases.empty rewrittenChannel site.occurrence :=
  rewrite_stable_exact Aliases.rooted_empty rewrittenChannel

/-- The modeled channel is announced as one that is not modeled, which the first rewrite did not do. -/
theorem rewrittenChannel_unstable :
    prependedStmts rewrittenChannel (applyModelRewrite rewrittenChannel) = [] ∧
      prependedStmts (applyModelRewrite rewrittenChannel) (applyModelRewrite (applyModelRewrite rewrittenChannel)) =
        [markerStmt .channel] ∧
      ¬ Stable rewrittenChannel (applyModelRewrite rewrittenChannel)
        (applyModelRewrite (applyModelRewrite rewrittenChannel)) := by
  have before : prependedStmts rewrittenChannel (applyModelRewrite rewrittenChannel) = [] := rfl
  have after : prependedStmts (applyModelRewrite rewrittenChannel)
      (applyModelRewrite (applyModelRewrite rewrittenChannel)) = [markerStmt .channel] := rfl
  refine ⟨before, after, ?_⟩
  intro stable
  have marked := stable.markers .channel
  rw [before, after] at marked
  exact List.not_mem_nil (marked (List.mem_singleton_self _))

end Laplace.Soundness
