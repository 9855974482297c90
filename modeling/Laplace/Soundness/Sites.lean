import Laplace.Soundness.NameResolution

/-! # Sites of a tree

A site is a place where a hook of the rewrite fires: the callee of a call, a type path or a macro
name. Sites are listed in visiting order, each with the shape of its path, the alias tables of the
functions whose bodies enclose it and the scopes around it. The visitor neither adds nor drops a site, so the `n`th site of the
output is the `n`th site of the input; what happens to each is decided by `ModelRewrite.treat` alone.
-/

namespace Laplace.Soundness

open Model

/-- A place and the shape of the path that stands there. -/
structure Occurrence where
  position : Position
  path : Path Unit
deriving DecidableEq, Repr

structure Site where
  occurrence : Occurrence
  /-- For each enclosing function body, innermost first: the table it would have if annotated alone. -/
  bodies : List Aliases
  /-- The blocks and modules around the site, innermost first. -/
  regions : List Region

/-- What encloses a node. -/
structure Scope where
  aliases : Aliases := Aliases.empty
  bodies : List Aliases := []
  regions : List Region := []

def Scope.site (scope : Scope) (position : Position) (path : Path Node) : List Site :=
  [⟨⟨position, path.shape⟩, scope.bodies, scope.regions⟩]

/-- A function body sees the enclosing aliases and its own imports. -/
def Scope.body (scope : Scope) (stmts : List Stmt) : Scope :=
  let own := mergeAliases scope.aliases (scanUseAliasesStmts stmts)
  { aliases := own, bodies := own :: scope.bodies, regions := blockRegion stmts :: scope.regions }

/-- A block inside a body has no table of its own. -/
def Scope.block (scope : Scope) (stmts : List Stmt) : Scope :=
  { scope with regions := blockRegion stmts :: scope.regions }

def Scope.module (scope : Scope) (items : List Item) : Scope :=
  { scope with
    aliases := mergeAliases scope.aliases (scanUseAliasesItems items)
    regions := ⟨items, true⟩ :: scope.regions }

/-- The call site of a callee that is a path. -/
def Scope.callee (scope : Scope) : Node → List Site
  | .exprPath _ path => scope.site .call path
  | _ => []

mutual
def sitesNode (scope : Scope) : Node → List Site
  | .exprPath qself path => sitesOption scope qself ++ sitesPath scope path
  | .exprCall func args => sitesNode scope func ++ sitesNodes scope args ++ scope.callee func
  | .typePath qself path => sitesOption scope qself ++ sitesPath scope path ++ scope.site .type path
  | .macroCall path _ => sitesPath scope path ++ scope.site .macroName path
  | .wild => []
  | .block _ stmts => sitesStmts (scope.block stmts) stmts
  | .other _ children => sitesNodes scope children

def sitesOption (scope : Scope) : Option Node → List Site
  | none => []
  | some node => sitesNode scope node

def sitesNodes (scope : Scope) : List Node → List Site
  | [] => []
  | node :: rest => sitesNode scope node ++ sitesNodes scope rest

def sitesPath (scope : Scope) : Path Node → List Site
  | ⟨_, segments⟩ => sitesSegments scope segments

def sitesSegments (scope : Scope) : List (PathSegment Node) → List Site
  | [] => []
  | ⟨_, arguments⟩ :: rest => sitesArguments scope arguments ++ sitesSegments scope rest

def sitesArguments (scope : Scope) : PathArguments Node → List Site
  | .none => []
  | .angleBracketed args => sitesNodes scope args
  | .parenthesized args => sitesNodes scope args

def sitesStmt (scope : Scope) : Stmt → List Site
  | .local pat init diverge => sitesNode scope pat ++ sitesOption scope init ++ sitesOption scope diverge
  | .item item => sitesItem scope item
  | .expr expr _ => sitesNode scope expr
  | .macroCall path _ => sitesPath scope path ++ scope.site .macroName path

def sitesStmts (scope : Scope) : List Stmt → List Site
  | [] => []
  | stmt :: rest => sitesStmt scope stmt ++ sitesStmts scope rest

def sitesItem (scope : Scope) : Item → List Site
  | .use _ => []
  | .externCrate .. => []
  | .fn _ signature stmts => sitesNodes scope signature ++ sitesStmts (scope.body stmts) stmts
  | .mod _ none => []
  | .mod _ (some items) => sitesItems (scope.module items) items
  | .impl header items => sitesNodes scope header ++ sitesItems scope items
  | .trait _ header items => sitesNodes scope header ++ sitesItems scope items
  | .named _ _ children => sitesNodes scope children
  | .macroCall _ path _ => sitesPath scope path ++ scope.site .macroName path
  | .other _ children => sitesNodes scope children

def sitesItems (scope : Scope) : List Item → List Site
  | [] => []
  | item :: rest => sitesItem scope item ++ sitesItems scope rest
end

/-! ## Sites of paths -/

theorem sitesNodes_append (scope : Scope) (first second : List Node) :
    sitesNodes scope (first ++ second) = sitesNodes scope first ++ sitesNodes scope second := by
  induction first with
  | nil => rfl
  | cons node rest ih => simp only [List.cons_append, sitesNodes, ih, List.append_assoc]

/-- The sites inside a path are those of its arguments. -/
theorem sitesPath_eq (scope : Scope) (path : Path Node) : sitesPath scope path = sitesNodes scope path.nodes := by
  obtain ⟨leadingColon, segments⟩ := path
  rw [sitesPath]
  induction segments with
  | nil => rfl
  | cons segment rest ih =>
    obtain ⟨ident, arguments⟩ := segment
    have split : (Model.Path.mk leadingColon (⟨ident, arguments⟩ :: rest)).nodes =
        arguments.nodes ++ (Model.Path.mk leadingColon rest).nodes := rfl
    rw [sitesSegments, ih, split, sitesNodes_append]
    cases arguments <;> rfl

/-! ## Enclosing scopes

What encloses a tree is recorded at its sites and changes none of their occurrences. -/

theorem callee_occurrences (scope other : Scope) (func : Node) :
    (scope.callee func).map Site.occurrence = (other.callee func).map Site.occurrence := by
  cases func <;> rfl

mutual
theorem sitesNode_occurrences (scope other : Scope) (node : Node) :
    (sitesNode scope node).map Site.occurrence = (sitesNode other node).map Site.occurrence := by
  cases node with
  | exprPath qself path =>
    simp only [sitesNode, List.map_append, sitesOption_occurrences scope other qself,
      sitesPath_occurrences scope other path]
  | exprCall func args =>
    simp only [sitesNode, List.map_append, sitesNode_occurrences scope other func,
      sitesNodes_occurrences scope other args, callee_occurrences scope other]
  | typePath qself path =>
    simp only [sitesNode, List.map_append, sitesOption_occurrences scope other qself,
      sitesPath_occurrences scope other path]
    rfl
  | macroCall path tokens =>
    simp only [sitesNode, List.map_append, sitesPath_occurrences scope other path]
    rfl
  | wild => rfl
  | block text stmts =>
    simp only [sitesNode, sitesStmts_occurrences (scope.block stmts) (other.block stmts) stmts]
  | other text children => simp only [sitesNode, sitesNodes_occurrences scope other children]

theorem sitesOption_occurrences (scope other : Scope) (node : Option Node) :
    (sitesOption scope node).map Site.occurrence = (sitesOption other node).map Site.occurrence := by
  cases node with
  | none => rfl
  | some node => simp only [sitesOption, sitesNode_occurrences scope other node]

theorem sitesNodes_occurrences (scope other : Scope) (nodes : List Node) :
    (sitesNodes scope nodes).map Site.occurrence = (sitesNodes other nodes).map Site.occurrence := by
  cases nodes with
  | nil => rfl
  | cons node rest =>
    simp only [sitesNodes, List.map_append, sitesNode_occurrences scope other node,
      sitesNodes_occurrences scope other rest]

theorem sitesPath_occurrences (scope other : Scope) (path : Path Node) :
    (sitesPath scope path).map Site.occurrence = (sitesPath other path).map Site.occurrence := by
  cases path with
  | mk leadingColon segments => simp only [sitesPath, sitesSegments_occurrences scope other segments]

theorem sitesSegments_occurrences (scope other : Scope) (segments : List (PathSegment Node)) :
    (sitesSegments scope segments).map Site.occurrence = (sitesSegments other segments).map Site.occurrence := by
  match segments with
  | [] => rfl
  | ⟨ident, arguments⟩ :: rest =>
    simp only [sitesSegments, List.map_append, sitesArguments_occurrences scope other arguments,
      sitesSegments_occurrences scope other rest]

theorem sitesArguments_occurrences (scope other : Scope) (arguments : PathArguments Node) :
    (sitesArguments scope arguments).map Site.occurrence = (sitesArguments other arguments).map Site.occurrence := by
  cases arguments with
  | none => rfl
  | angleBracketed args => simp only [sitesArguments, sitesNodes_occurrences scope other args]
  | parenthesized args => simp only [sitesArguments, sitesNodes_occurrences scope other args]

theorem sitesStmt_occurrences (scope other : Scope) (stmt : Stmt) :
    (sitesStmt scope stmt).map Site.occurrence = (sitesStmt other stmt).map Site.occurrence := by
  cases stmt with
  | «local» pat init diverge =>
    simp only [sitesStmt, List.map_append, sitesNode_occurrences scope other pat,
      sitesOption_occurrences scope other init, sitesOption_occurrences scope other diverge]
  | item item => simp only [sitesStmt, sitesItem_occurrences scope other item]
  | expr expr semi => simp only [sitesStmt, sitesNode_occurrences scope other expr]
  | macroCall path tokens =>
    simp only [sitesStmt, List.map_append, sitesPath_occurrences scope other path]
    rfl

theorem sitesStmts_occurrences (scope other : Scope) (stmts : List Stmt) :
    (sitesStmts scope stmts).map Site.occurrence = (sitesStmts other stmts).map Site.occurrence := by
  cases stmts with
  | nil => rfl
  | cons stmt rest =>
    simp only [sitesStmts, List.map_append, sitesStmt_occurrences scope other stmt,
      sitesStmts_occurrences scope other rest]

theorem sitesItem_occurrences (scope other : Scope) (item : Item) :
    (sitesItem scope item).map Site.occurrence = (sitesItem other item).map Site.occurrence := by
  match item with
  | .use tree => rfl
  | .externCrate ident rename => rfl
  | .fn ident signature stmts =>
    simp only [sitesItem, List.map_append, sitesNodes_occurrences scope other signature,
      sitesStmts_occurrences (scope.body stmts) (other.body stmts) stmts]
  | .mod ident none => rfl
  | .mod ident (some items) =>
    simp only [sitesItem, sitesItems_occurrences (scope.module items) (other.module items) items]
  | .impl header items =>
    simp only [sitesItem, List.map_append, sitesNodes_occurrences scope other header,
      sitesItems_occurrences scope other items]
  | .trait ident header items =>
    simp only [sitesItem, List.map_append, sitesNodes_occurrences scope other header,
      sitesItems_occurrences scope other items]
  | .named kind ident children => simp only [sitesItem, sitesNodes_occurrences scope other children]
  | .macroCall ident path tokens =>
    simp only [sitesItem, List.map_append, sitesPath_occurrences scope other path]
    rfl
  | .other text children => simp only [sitesItem, sitesNodes_occurrences scope other children]

theorem sitesItems_occurrences (scope other : Scope) (items : List Item) :
    (sitesItems scope items).map Site.occurrence = (sitesItems other items).map Site.occurrence := by
  cases items with
  | nil => rfl
  | cons item rest =>
    simp only [sitesItems, List.map_append, sitesItem_occurrences scope other item,
      sitesItems_occurrences scope other rest]
end

/-- What the rewrite leaves at an occurrence. -/
def Occurrence.rewritten (rewrite : ModelRewrite) (here : Occurrence) : Occurrence :=
  ⟨here.position, (rewrite.treat here.position here.path).path here.path⟩

/-- What the rewrite records at a site. -/
def Site.flags (rewrite : ModelRewrite) (site : Site) : List Unmodeled :=
  (rewrite.treat site.occurrence.position site.occurrence.path).flags

section Visitor

variable {rewrite : ModelRewrite}

theorem visitPath_shape (path : Path Node) : (visitPath rewrite path).1.shape = path.shape := by
  obtain ⟨leadingColon, segments⟩ := path
  simp only [visitPath, Path.shape, Model.Path.mk.injEq, true_and]
  induction segments with
  | nil => rfl
  | cons segment rest ih =>
    obtain ⟨ident, arguments⟩ := segment
    simp only [visitSegments, List.map_cons, ih]
    cases arguments <;> rfl

/-- A visited path, treated, has the shape that treating the original shape gives. -/
theorem treat_visited_shape (position : Position) (path : Path Node) :
    ((rewrite.treat position (visitPath rewrite path).1).path (visitPath rewrite path).1).shape =
      (rewrite.treat position path.shape).path path.shape := by
  rw [Outcome.path_shape, ← ModelRewrite.treat_shape, visitPath_shape]

theorem treat_visited_flags (position : Position) (path : Path Node) :
    (rewrite.treat position (visitPath rewrite path).1).flags = (rewrite.treat position path.shape).flags := by
  rw [← Outcome.flags_shape, ← ModelRewrite.treat_shape, visitPath_shape]

/-- Replacing a visited path leaves the sites inside it. -/
theorem sitesPath_treated (rooted : rewrite.aliases.Rooted) (scope : Scope) (position : Position) (path : Path Node) :
    sitesPath scope ((rewrite.treat position path).path path) = sitesPath scope path := by
  rw [sitesPath_eq, sitesPath_eq, ModelRewrite.treat_nodes rooted]

/-- The occurrence a visited and treated path leaves. -/
theorem site_treated (scope before : Scope) (position : Position) (path : Path Node) :
    (scope.site position ((rewrite.treat position (visitPath rewrite path).1).path
      (visitPath rewrite path).1)).map Site.occurrence =
      (before.site position path).map fun site => site.occurrence.rewritten rewrite := by
  simp only [Scope.site, List.map_cons, List.map_nil, Occurrence.rewritten, treat_visited_shape]

theorem site_flags (scope : Scope) (position : Position) (path : Path Node) :
    (scope.site position path).flatMap (Site.flags rewrite) = (rewrite.treat position path.shape).flags := by
  simp only [Scope.site, List.flatMap_cons, List.flatMap_nil, List.append_nil, Site.flags]

theorem visitNode_exprPath (discarded : Bool) (qself : Option Node) (path : Path Node) :
    (visitNode rewrite discarded (.exprPath qself path)).1 =
      .exprPath (visitOption rewrite false qself).1 (visitPath rewrite path).1 := rfl

theorem visitExprCall_call (func : Node) (args : List Node) :
    ∃ callee, (rewrite.visitExprCall func args).1 = .exprCall callee args := by
  cases func <;> exact ⟨_, rfl⟩

/-! ## Recorded primitives

One case for each constructor; the primitives of a node are those of its children, then its own. -/

/-- A call's own flag is that of its callee. -/
theorem visitExprCall_flags (scope : Scope) (func : Node) (args : List Node) :
    (rewrite.visitExprCall (visitNode rewrite false func).1 args).2 =
      (scope.callee func).flatMap (Site.flags rewrite) := by
  cases func with
  | exprPath qself path =>
    rw [Scope.callee, site_flags, ← treat_visited_flags]
    rfl
  | exprCall func inner =>
    obtain ⟨callee, visited⟩ := visitExprCall_call (visitNode rewrite false func).1 (visitNodes rewrite inner).1
    have call : (visitNode rewrite false (.exprCall func inner)).1 = .exprCall callee (visitNodes rewrite inner).1 :=
      visited
    rw [call]
    rfl
  | typePath | macroCall | wild | block | other => rfl

mutual
theorem visitNode_flags (untasked : rewrite.options.tasks = false) (scope : Scope)
    (node : Node) :
    (visitNode rewrite false node).2 = (sitesNode scope node).flatMap (Site.flags rewrite) := by
  cases node with
  | exprPath qself path =>
    simp only [visitNode, sitesNode, List.flatMap_append, visitOption_flags untasked scope qself,
      visitPath_flags untasked scope path]
  | exprCall func args =>
    simp only [visitNode, sitesNode, List.flatMap_append, visitNode_flags untasked scope func,
      visitNodes_flags untasked scope args,
      Bool.false_eq_true, ↓reduceIte, visitExprCall_flags scope]
  | typePath qself path =>
    simp only [visitNode, sitesNode, List.flatMap_append, visitOption_flags untasked scope qself,
      visitPath_flags untasked scope path,
      treat_visited_flags, site_flags]
  | macroCall path tokens =>
    simp only [visitNode, sitesNode, List.flatMap_append, visitPath_flags untasked scope path,
      treat_visited_flags, site_flags]
  | wild => rfl
  | block text stmts => simp only [visitNode, sitesNode, visitStmts_flags untasked (scope.block stmts) stmts]
  | other text children => simp only [visitNode, sitesNode, visitNodes_flags untasked scope children]

theorem visitOption_flags (untasked : rewrite.options.tasks = false) (scope : Scope)
    (node : Option Node) :
    (visitOption rewrite false node).2 = (sitesOption scope node).flatMap (Site.flags rewrite) := by
  cases node with
  | none => rfl
  | some node => simp only [visitOption, sitesOption, visitNode_flags untasked scope node]

theorem visitNodes_flags (untasked : rewrite.options.tasks = false) (scope : Scope)
    (nodes : List Node) :
    (visitNodes rewrite nodes).2 = (sitesNodes scope nodes).flatMap (Site.flags rewrite) := by
  cases nodes with
  | nil => rfl
  | cons node rest =>
    simp only [visitNodes, sitesNodes, List.flatMap_append, visitNode_flags untasked scope node,
      visitNodes_flags untasked scope rest]

theorem visitPath_flags (untasked : rewrite.options.tasks = false) (scope : Scope)
    (path : Path Node) :
    (visitPath rewrite path).2 = (sitesPath scope path).flatMap (Site.flags rewrite) := by
  cases path with
  | mk leadingColon segments => simp only [visitPath, sitesPath, visitSegments_flags untasked scope segments]

theorem visitSegments_flags (untasked : rewrite.options.tasks = false) (scope : Scope)
    (segments : List (PathSegment Node)) :
    (visitSegments rewrite segments).2 = (sitesSegments scope segments).flatMap (Site.flags rewrite) := by
  match segments with
  | [] => rfl
  | ⟨ident, arguments⟩ :: rest =>
    simp only [visitSegments, sitesSegments, List.flatMap_append,
      visitArguments_flags untasked scope arguments,
      visitSegments_flags untasked scope rest]

theorem visitArguments_flags (untasked : rewrite.options.tasks = false) (scope : Scope)
    (arguments : PathArguments Node) :
    (visitArguments rewrite arguments).2 = (sitesArguments scope arguments).flatMap (Site.flags rewrite) := by
  cases arguments with
  | none => rfl
  | angleBracketed args => simp only [visitArguments, sitesArguments, visitNodes_flags untasked scope args]
  | parenthesized args => simp only [visitArguments, sitesArguments, visitNodes_flags untasked scope args]

theorem visitStmt_flags (untasked : rewrite.options.tasks = false) (scope : Scope)
    (stmt : Stmt) :
    (visitStmt rewrite stmt).2 = (sitesStmt scope stmt).flatMap (Site.flags rewrite) := by
  cases stmt with
  | «local» pat init diverge =>
    simp only [visitStmt, sitesStmt, List.flatMap_append, untasked, Bool.false_and,
      visitNode_flags untasked scope pat,
      visitOption_flags untasked scope init, visitOption_flags untasked scope diverge]
  | item item => simp only [visitStmt, sitesStmt, visitItem_flags untasked scope item]
  | expr expr semi =>
    simp only [visitStmt, sitesStmt, untasked, Bool.false_and, visitNode_flags untasked scope expr]
  | macroCall path tokens =>
    simp only [visitStmt, sitesStmt, List.flatMap_append, visitPath_flags untasked scope path,
      treat_visited_flags, site_flags]

theorem visitStmts_flags (untasked : rewrite.options.tasks = false) (scope : Scope)
    (stmts : List Stmt) :
    (visitStmts rewrite stmts).2 = (sitesStmts scope stmts).flatMap (Site.flags rewrite) := by
  cases stmts with
  | nil => rfl
  | cons stmt rest =>
    simp only [visitStmts, sitesStmts, List.flatMap_append, visitStmt_flags untasked scope stmt,
      visitStmts_flags untasked scope rest]

theorem visitItem_flags (untasked : rewrite.options.tasks = false) (scope : Scope)
    (item : Item) :
    (visitItem rewrite item).2 = (sitesItem scope item).flatMap (Site.flags rewrite) := by
  match item with
  | .use tree => rfl
  | .externCrate ident rename => rfl
  | .fn ident signature stmts =>
    simp only [visitItem, sitesItem, List.flatMap_append, visitNodes_flags untasked scope signature,
      visitStmts_flags untasked (scope.body stmts) stmts]
  | .mod ident none => rfl
  | .mod ident (some items) => simp only [visitItem, sitesItem,
    visitItems_flags untasked (scope.module items) items]
  | .impl header items =>
    simp only [visitItem, sitesItem, List.flatMap_append, visitNodes_flags untasked scope header,
      visitItems_flags untasked scope items]
  | .trait ident header items =>
    simp only [visitItem, sitesItem, List.flatMap_append, visitNodes_flags untasked scope header,
      visitItems_flags untasked scope items]
  | .named kind ident children => simp only [visitItem, sitesItem, visitNodes_flags untasked scope children]
  | .macroCall ident path tokens =>
    simp only [visitItem, sitesItem, List.flatMap_append, visitPath_flags untasked scope path,
      treat_visited_flags, site_flags]
  | .other text children => simp only [visitItem, sitesItem, visitNodes_flags untasked scope children]

theorem visitItems_flags (untasked : rewrite.options.tasks = false) (scope : Scope)
    (items : List Item) :
    (visitItems rewrite items).2 = (sitesItems scope items).flatMap (Site.flags rewrite) := by
  cases items with
  | nil => rfl
  | cons item rest =>
    simp only [visitItems, sitesItems, List.flatMap_append, visitItem_flags untasked scope item,
      visitItems_flags untasked scope rest]
end

/-! ## Rewritten occurrences -/

/-- A visited call has the sites of its visited parts and its treated callee. -/
theorem sites_visitExprCall (rooted : rewrite.aliases.Rooted) (scope before : Scope) (func : Node)
    (args : List Node) :
    (sitesNode scope (rewrite.visitExprCall (visitNode rewrite false func).1 args).1).map Site.occurrence =
      (sitesNode scope (visitNode rewrite false func).1).map Site.occurrence ++
        (sitesNodes scope args).map Site.occurrence ++
        (before.callee func).map fun site => site.occurrence.rewritten rewrite := by
  cases func with
  | exprPath qself path =>
    rw [visitNode_exprPath, ModelRewrite.visitExprCall, Scope.callee, ← site_treated scope before]
    simp only [sitesNode, sitesPath_treated rooted, Scope.callee, List.map_append]
  | exprCall func inner =>
    obtain ⟨callee, visited⟩ := visitExprCall_call (visitNode rewrite false func).1 (visitNodes rewrite inner).1
    have call : (visitNode rewrite false (.exprCall func inner)).1 = .exprCall callee (visitNodes rewrite inner).1 :=
      visited
    rw [call]
    simp only [ModelRewrite.visitExprCall, sitesNode, Scope.callee, List.map_append, List.map_nil]
  | typePath | macroCall | wild | block | other =>
    simp only [visitNode, ModelRewrite.visitExprCall, sitesNode, Scope.callee, List.map_append, List.map_nil]

mutual
theorem visitNode_sites (untasked : rewrite.options.tasks = false) (rooted : rewrite.aliases.Rooted)
    (scope before : Scope) (node : Node) :
    (sitesNode scope (visitNode rewrite false node).1).map Site.occurrence =
      (sitesNode before node).map fun site => site.occurrence.rewritten rewrite := by
  cases node with
  | exprPath qself path =>
    simp only [visitNode, sitesNode, List.map_append, visitOption_sites untasked rooted scope before qself,
      visitPath_sites untasked rooted scope before path]
  | exprCall func args =>
    simp only [visitNode, Bool.false_eq_true, ↓reduceIte, sites_visitExprCall rooted scope before, sitesNode,
      List.map_append, visitNode_sites untasked rooted scope before func, visitNodes_sites untasked rooted scope before args]
  | typePath qself path =>
    simp only [visitNode, sitesNode, List.map_append, sitesPath_treated rooted, site_treated scope before,
      visitOption_sites untasked rooted scope before qself, visitPath_sites untasked rooted scope before path]
  | macroCall path tokens =>
    simp only [visitNode, sitesNode, List.map_append, sitesPath_treated rooted, site_treated scope before,
      visitPath_sites untasked rooted scope before path]
  | wild => rfl
  | block text stmts =>
    simp only [visitNode, sitesNode,
      visitStmts_sites untasked rooted (scope.block (visitStmts rewrite stmts).1) (before.block stmts) stmts]
  | other text children => simp only [visitNode, sitesNode,
    visitNodes_sites untasked rooted scope before children]

theorem visitOption_sites (untasked : rewrite.options.tasks = false) (rooted : rewrite.aliases.Rooted)
    (scope before : Scope) (node : Option Node) :
    (sitesOption scope (visitOption rewrite false node).1).map Site.occurrence =
      (sitesOption before node).map fun site => site.occurrence.rewritten rewrite := by
  cases node with
  | none => rfl
  | some node => simp only [visitOption, sitesOption, visitNode_sites untasked rooted scope before node]

theorem visitNodes_sites (untasked : rewrite.options.tasks = false) (rooted : rewrite.aliases.Rooted)
    (scope before : Scope) (nodes : List Node) :
    (sitesNodes scope (visitNodes rewrite nodes).1).map Site.occurrence =
      (sitesNodes before nodes).map fun site => site.occurrence.rewritten rewrite := by
  cases nodes with
  | nil => rfl
  | cons node rest =>
    simp only [visitNodes, sitesNodes, List.map_append, visitNode_sites untasked rooted scope before node,
      visitNodes_sites untasked rooted scope before rest]

theorem visitPath_sites (untasked : rewrite.options.tasks = false) (rooted : rewrite.aliases.Rooted)
    (scope before : Scope) (path : Path Node) :
    (sitesPath scope (visitPath rewrite path).1).map Site.occurrence =
      (sitesPath before path).map fun site => site.occurrence.rewritten rewrite := by
  cases path with
  | mk leadingColon segments => simp only [visitPath, sitesPath,
    visitSegments_sites untasked rooted scope before segments]

theorem visitSegments_sites (untasked : rewrite.options.tasks = false) (rooted : rewrite.aliases.Rooted)
    (scope before : Scope) (segments : List (PathSegment Node)) :
    (sitesSegments scope (visitSegments rewrite segments).1).map Site.occurrence =
      (sitesSegments before segments).map fun site => site.occurrence.rewritten rewrite := by
  match segments with
  | [] => rfl
  | ⟨ident, arguments⟩ :: rest =>
    simp only [visitSegments, sitesSegments, List.map_append,
      visitArguments_sites untasked rooted scope before arguments,
      visitSegments_sites untasked rooted scope before rest]

theorem visitArguments_sites (untasked : rewrite.options.tasks = false) (rooted : rewrite.aliases.Rooted)
    (scope before : Scope) (arguments : PathArguments Node) :
    (sitesArguments scope (visitArguments rewrite arguments).1).map Site.occurrence =
      (sitesArguments before arguments).map fun site => site.occurrence.rewritten rewrite := by
  cases arguments with
  | none => rfl
  | angleBracketed args => simp only [visitArguments, sitesArguments,
    visitNodes_sites untasked rooted scope before args]
  | parenthesized args => simp only [visitArguments, sitesArguments,
    visitNodes_sites untasked rooted scope before args]

theorem visitStmt_sites (untasked : rewrite.options.tasks = false) (rooted : rewrite.aliases.Rooted)
    (scope before : Scope) (stmt : Stmt) :
    (sitesStmt scope (visitStmt rewrite stmt).1).map Site.occurrence =
      (sitesStmt before stmt).map fun site => site.occurrence.rewritten rewrite := by
  cases stmt with
  | «local» pat init diverge =>
    simp only [visitStmt, sitesStmt, List.map_append, untasked, Bool.false_and,
      visitNode_sites untasked rooted scope before pat,
      visitOption_sites untasked rooted scope before init,
      visitOption_sites untasked rooted scope before diverge]
  | item item => simp only [visitStmt, sitesStmt, visitItem_sites untasked rooted scope before item]
  | expr expr semi => simp only [visitStmt, sitesStmt, untasked, Bool.false_and,
    visitNode_sites untasked rooted scope before expr]
  | macroCall path tokens =>
    simp only [visitStmt, sitesStmt, List.map_append, sitesPath_treated rooted, site_treated scope before,
      visitPath_sites untasked rooted scope before path]

theorem visitStmts_sites (untasked : rewrite.options.tasks = false) (rooted : rewrite.aliases.Rooted)
    (scope before : Scope) (stmts : List Stmt) :
    (sitesStmts scope (visitStmts rewrite stmts).1).map Site.occurrence =
      (sitesStmts before stmts).map fun site => site.occurrence.rewritten rewrite := by
  cases stmts with
  | nil => rfl
  | cons stmt rest =>
    simp only [visitStmts, sitesStmts, List.map_append, visitStmt_sites untasked rooted scope before stmt,
      visitStmts_sites untasked rooted scope before rest]

theorem visitItem_sites (untasked : rewrite.options.tasks = false) (rooted : rewrite.aliases.Rooted)
    (scope before : Scope) (item : Item) :
    (sitesItem scope (visitItem rewrite item).1).map Site.occurrence =
      (sitesItem before item).map fun site => site.occurrence.rewritten rewrite := by
  match item with
  | .use tree => rfl
  | .externCrate ident rename => rfl
  | .fn ident signature stmts =>
    simp only [visitItem, sitesItem, List.map_append, visitNodes_sites untasked rooted scope before signature,
      visitStmts_sites untasked rooted (scope.body (visitStmts rewrite stmts).1) (before.body stmts) stmts]
  | .mod ident none => rfl
  | .mod ident (some items) =>
    simp only [visitItem, sitesItem,
      visitItems_sites untasked rooted (scope.module (visitItems rewrite items).1) (before.module items) items]
  | .impl header items =>
    simp only [visitItem, sitesItem, List.map_append, visitNodes_sites untasked rooted scope before header,
      visitItems_sites untasked rooted scope before items]
  | .trait ident header items =>
    simp only [visitItem, sitesItem, List.map_append, visitNodes_sites untasked rooted scope before header,
      visitItems_sites untasked rooted scope before items]
  | .named kind ident children => simp only [visitItem, sitesItem,
    visitNodes_sites untasked rooted scope before children]
  | .macroCall ident path tokens =>
    simp only [visitItem, sitesItem, List.map_append, sitesPath_treated rooted, site_treated scope before,
      visitPath_sites untasked rooted scope before path]
  | .other text children => simp only [visitItem, sitesItem,
    visitNodes_sites untasked rooted scope before children]

theorem visitItems_sites (untasked : rewrite.options.tasks = false) (rooted : rewrite.aliases.Rooted)
    (scope before : Scope) (items : List Item) :
    (sitesItems scope (visitItems rewrite items).1).map Site.occurrence =
      (sitesItems before items).map fun site => site.occurrence.rewritten rewrite := by
  cases items with
  | nil => rfl
  | cons item rest =>
    simp only [visitItems, sitesItems, List.map_append, visitItem_sites untasked rooted scope before item,
      visitItems_sites untasked rooted scope before rest]
end

end Visitor

/-! ## Functions -/

/-- The sites of a function's signature and body. -/
def fnSites (scope : Scope) (func : ItemFn) : List Site :=
  sitesNodes scope func.signature ++ sitesStmts (scope.body func.stmts) func.stmts

/-- The rewrite a function is visited with. -/
def fnRewrite (base : Aliases) (func : ItemFn) : ModelRewrite :=
  { aliases := mergeAliases base (scanUseAliasesStmts func.stmts), options := {} }

theorem fnRewrite_rooted {base : Aliases} (rooted : base.Rooted) (func : ItemFn) :
    (fnRewrite base func).aliases.Rooted :=
  mergeAliases_rooted rooted (scanUseAliasesItems_rooted _)

/-- Markers add no site. -/
theorem sitesStmts_markers (scope : Scope) (primitives : List Unmodeled) (stmts : List Stmt) :
    sitesStmts scope (primitives.map markerStmt ++ stmts) = sitesStmts scope stmts := by
  induction primitives with
  | nil => rfl
  | cons primitive rest ih => exact ih

theorem fnSites_rewritten {base : Aliases} (rooted : base.Rooted) (scope before : Scope) (func : ItemFn) :
    (fnSites scope (applyModelRewriteWithBaseAliases func base {})).map Site.occurrence =
      (fnSites before func).map fun site => site.occurrence.rewritten (fnRewrite base func) := by
  have bound := fnRewrite_rooted rooted func
  simp only [fnSites, applyModelRewriteWithBaseAliases, injectUnmodeledMarkers, sitesStmts_markers,
    List.map_append]
  congr 1
  · exact visitNodes_sites rfl bound scope before func.signature
  · exact visitStmts_sites rfl bound _ (before.body func.stmts) func.stmts

theorem visitStmts_length (rewrite : ModelRewrite) (stmts : List Stmt) :
    (visitStmts rewrite stmts).1.length = stmts.length := by
  induction stmts with
  | nil => rfl
  | cons stmt rest ih => simp only [visitStmts, List.length_cons, ih]

/-- The statements the rewrite puts before the function's own. -/
def prependedStmts (func rewritten : ItemFn) : List Stmt :=
  rewritten.stmts.take (rewritten.stmts.length - func.stmts.length)

theorem markerStmt_injective : Function.Injective markerStmt := by
  intro first second same
  have idents : first.markerIdent = second.markerIdent := by
    simpa [markerStmt, rtPath, PathSegment.plain] using same
  cases first <;> cases second <;> first | rfl | exact absurd idents (by decide)

/-- The primitives that the visit of a function records, each once and in the order of the markers. -/
def recordedPrimitives (base : Aliases) (func : ItemFn) : List Unmodeled :=
  Unmodeled.order.filter ((visitNodes (fnRewrite base func) func.signature).2 ++
    (visitStmts (fnRewrite base func) func.stmts).2).contains

theorem mem_recordedPrimitives (base : Aliases) (scope : Scope) (func : ItemFn) (primitive : Unmodeled) :
    primitive ∈ recordedPrimitives base func ↔
      ∃ site ∈ fnSites scope func, primitive ∈ site.flags (fnRewrite base func) := by
  have ordered : primitive ∈ Unmodeled.order := by cases primitive <;> decide
  rw [recordedPrimitives, List.mem_filter, List.contains_iff_mem, visitNodes_flags rfl scope,
    visitStmts_flags rfl (scope.body func.stmts), ← List.flatMap_append, List.mem_flatMap]
  exact and_iff_right ordered

theorem prependedStmts_eq (base : Aliases) (func : ItemFn) :
    prependedStmts func (applyModelRewriteWithBaseAliases func base {}) =
      (recordedPrimitives base func).map markerStmt := by
  apply List.take_left'
  simp only [applyModelRewriteWithBaseAliases, injectUnmodeledMarkers, List.length_append, visitStmts_length,
    Nat.add_sub_cancel]

/-- A marker is prepended exactly when some site records its primitive. -/
theorem markerStmt_prepended_iff (base : Aliases) (scope : Scope) (func : ItemFn) (primitive : Unmodeled) :
    markerStmt primitive ∈ prependedStmts func (applyModelRewriteWithBaseAliases func base {}) ↔
      ∃ site ∈ fnSites scope func, primitive ∈ site.flags (fnRewrite base func) := by
  rw [prependedStmts_eq, List.mem_map_of_injective markerStmt_injective, mem_recordedPrimitives]

end Laplace.Soundness
