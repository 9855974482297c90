import Laplace.Soundness.Sites
import Mathlib.Data.List.Nodup

/-! # What the rewrite leaves alone

The frame of a tree is the tree without the names in the paths at its sites: of such a path only the argument
lists are kept, in order. The visitor keeps the frame of every node, so that whatever it changes is a name in the
path of a callee, of a type or of a macro; which of these it changes, the occurrences say.
-/

namespace Laplace.Soundness

open Model

mutual
/-- `callee` is set on the function of a call. -/
def frameNode (callee : Bool) : Node → Node
  | .exprPath qself path => .exprPath (frameOption qself) (if callee then frameSite path else framePath path)
  | .exprCall func args => .exprCall (frameNode true func) (frameNodes args)
  | .typePath qself path => .typePath (frameOption qself) (frameSite path)
  | .macroCall path tokens => .macroCall (frameSite path) tokens
  | .wild => .wild
  | .block text stmts => .block text (frameStmts stmts)
  | .other text children => .other text (frameNodes children)

def frameOption : Option Node → Option Node
  | none => none
  | some node => some (frameNode false node)

def frameNodes : List Node → List Node
  | [] => []
  | node :: rest => frameNode false node :: frameNodes rest

/-- A path that is no site keeps its names. -/
def framePath : Path Node → Path Node
  | ⟨leadingColon, segments⟩ => ⟨leadingColon, frameSegments segments⟩

def frameSegments : List (PathSegment Node) → List (PathSegment Node)
  | [] => []
  | ⟨ident, arguments⟩ :: rest => ⟨ident, frameArguments arguments⟩ :: frameSegments rest

/-- Of the path at a site the argument lists are left. -/
def frameSite : Path Node → Path Node
  | ⟨_, segments⟩ => ⟨false, frameCarried segments⟩

def frameCarried : List (PathSegment Node) → List (PathSegment Node)
  | [] => []
  | ⟨_, arguments⟩ :: rest =>
    if arguments.isNone then frameCarried rest else ⟨"", frameArguments arguments⟩ :: frameCarried rest

def frameArguments : PathArguments Node → PathArguments Node
  | .none => .none
  | .angleBracketed args => .angleBracketed (frameNodes args)
  | .parenthesized args => .parenthesized (frameNodes args)

def frameStmt : Stmt → Stmt
  | .local pat init diverge => .local (frameNode false pat) (frameOption init) (frameOption diverge)
  | .item item => .item (frameItem item)
  | .expr expr semi => .expr (frameNode false expr) semi
  | .macroCall path tokens => .macroCall (frameSite path) tokens

def frameStmts : List Stmt → List Stmt
  | [] => []
  | stmt :: rest => frameStmt stmt :: frameStmts rest

def frameItem : Item → Item
  | .use tree => .use tree
  | .externCrate ident rename => .externCrate ident rename
  | .fn ident signature stmts => .fn ident (frameNodes signature) (frameStmts stmts)
  | .mod ident none => .mod ident none
  | .mod ident (some items) => .mod ident (some (frameItems items))
  | .impl header items => .impl (frameNodes header) (frameItems items)
  | .trait ident header items => .trait ident (frameNodes header) (frameItems items)
  | .named kind ident children => .named kind ident (frameNodes children)
  | .macroCall ident path tokens => .macroCall ident (frameSite path) tokens
  | .other text children => .other text (frameNodes children)

def frameItems : List Item → List Item
  | [] => []
  | item :: rest => frameItem item :: frameItems rest
end

/-! ## Paths at sites -/

theorem frameSite_eq_carried (path : Path Node) :
    frameSite path = ⟨false, path.carried.map fun arguments => ⟨"", frameArguments arguments⟩⟩ := by
  obtain ⟨leadingColon, segments⟩ := path
  rw [frameSite, Model.Path.mk.injEq]
  refine ⟨rfl, ?_⟩
  induction segments with
  | nil => rfl
  | cons segment rest ih =>
    obtain ⟨ident, arguments⟩ := segment
    rw [frameCarried, ih]
    cases arguments <;> rfl

section Visitor

variable {rewrite : ModelRewrite}

/-- Replacing a path keeps the frame of its site. -/
theorem frameSite_treated (rooted : rewrite.aliases.Rooted) (position : Position) (path : Path Node) :
    frameSite ((rewrite.treat position path).path path) = frameSite path := by
  rw [frameSite_eq_carried, ModelRewrite.treat_carried rooted, frameSite_eq_carried]

theorem isNone_visitArguments (arguments : PathArguments Node) :
    (visitArguments rewrite arguments).1.isNone = arguments.isNone := by
  cases arguments <;> rfl

/-- The hook of a call keeps the frame of its callee. -/
theorem frame_visitExprCall (rooted : rewrite.aliases.Rooted) (callee : Bool) (func : Node) (args : List Node) :
    frameNode callee (rewrite.visitExprCall func args).1 = .exprCall (frameNode true func) (frameNodes args) := by
  cases func with
  | exprPath qself path =>
    simp only [ModelRewrite.visitExprCall, frameNode, ↓reduceIte, frameSite_treated rooted]
  | exprCall | typePath | macroCall | wild | block | other => rfl

/-! ## The visitor

One case for each constructor: the visited children have their frames, and so has the treated path. -/

mutual
theorem frameNode_visited (untasked : rewrite.options.tasks = false) (rooted : rewrite.aliases.Rooted)
    (callee : Bool) (node : Node) :
    frameNode callee (visitNode rewrite false node).1 = frameNode callee node := by
  cases node with
  | exprPath qself path =>
    simp only [visitNode, frameNode, frameOption_visited untasked rooted qself, framePath_visited untasked rooted path,
      frameSite_visited untasked rooted path]
  | exprCall func args =>
    simp only [visitNode, Bool.false_eq_true, ↓reduceIte, frame_visitExprCall rooted, frameNode,
      frameNode_visited untasked rooted true func, frameNodes_visited untasked rooted args]
  | typePath qself path =>
    simp only [visitNode, frameNode, frameOption_visited untasked rooted qself, frameSite_treated rooted,
      frameSite_visited untasked rooted path]
  | macroCall path tokens =>
    simp only [visitNode, frameNode, frameSite_treated rooted, frameSite_visited untasked rooted path]
  | wild => rfl
  | block text stmts => simp only [visitNode, frameNode, frameStmts_visited untasked rooted stmts]
  | other text children => simp only [visitNode, frameNode, frameNodes_visited untasked rooted children]

theorem frameOption_visited (untasked : rewrite.options.tasks = false) (rooted : rewrite.aliases.Rooted)
    (node : Option Node) : frameOption (visitOption rewrite false node).1 = frameOption node := by
  cases node with
  | none => rfl
  | some node => simp only [visitOption, frameOption, frameNode_visited untasked rooted false node]

theorem frameNodes_visited (untasked : rewrite.options.tasks = false) (rooted : rewrite.aliases.Rooted)
    (nodes : List Node) : frameNodes (visitNodes rewrite nodes).1 = frameNodes nodes := by
  cases nodes with
  | nil => rfl
  | cons node rest =>
    simp only [visitNodes, frameNodes, frameNode_visited untasked rooted false node,
      frameNodes_visited untasked rooted rest]

theorem framePath_visited (untasked : rewrite.options.tasks = false) (rooted : rewrite.aliases.Rooted)
    (path : Path Node) : framePath (visitPath rewrite path).1 = framePath path := by
  cases path with
  | mk leadingColon segments => simp only [visitPath, framePath, frameSegments_visited untasked rooted segments]

theorem frameSegments_visited (untasked : rewrite.options.tasks = false) (rooted : rewrite.aliases.Rooted)
    (segments : List (PathSegment Node)) : frameSegments (visitSegments rewrite segments).1 = frameSegments segments := by
  match segments with
  | [] => rfl
  | ⟨ident, arguments⟩ :: rest =>
    simp only [visitSegments, frameSegments, frameArguments_visited untasked rooted arguments,
      frameSegments_visited untasked rooted rest]

theorem frameSite_visited (untasked : rewrite.options.tasks = false) (rooted : rewrite.aliases.Rooted)
    (path : Path Node) : frameSite (visitPath rewrite path).1 = frameSite path := by
  cases path with
  | mk leadingColon segments => simp only [visitPath, frameSite, frameCarried_visited untasked rooted segments]

theorem frameCarried_visited (untasked : rewrite.options.tasks = false) (rooted : rewrite.aliases.Rooted)
    (segments : List (PathSegment Node)) : frameCarried (visitSegments rewrite segments).1 = frameCarried segments := by
  match segments with
  | [] => rfl
  | ⟨ident, arguments⟩ :: rest =>
    simp only [visitSegments, frameCarried, isNone_visitArguments, frameArguments_visited untasked rooted arguments,
      frameCarried_visited untasked rooted rest]

theorem frameArguments_visited (untasked : rewrite.options.tasks = false) (rooted : rewrite.aliases.Rooted)
    (arguments : PathArguments Node) : frameArguments (visitArguments rewrite arguments).1 = frameArguments arguments := by
  cases arguments with
  | none => rfl
  | angleBracketed args => simp only [visitArguments, frameArguments, frameNodes_visited untasked rooted args]
  | parenthesized args => simp only [visitArguments, frameArguments, frameNodes_visited untasked rooted args]

theorem frameStmt_visited (untasked : rewrite.options.tasks = false) (rooted : rewrite.aliases.Rooted)
    (stmt : Stmt) : frameStmt (visitStmt rewrite stmt).1 = frameStmt stmt := by
  cases stmt with
  | «local» pat init diverge =>
    simp only [visitStmt, frameStmt, untasked, Bool.false_and, frameNode_visited untasked rooted false pat,
      frameOption_visited untasked rooted init, frameOption_visited untasked rooted diverge]
  | item item => simp only [visitStmt, frameStmt, frameItem_visited untasked rooted item]
  | expr expr semi =>
    simp only [visitStmt, frameStmt, untasked, Bool.false_and, frameNode_visited untasked rooted false expr]
  | macroCall path tokens =>
    simp only [visitStmt, frameStmt, frameSite_treated rooted, frameSite_visited untasked rooted path]

theorem frameStmts_visited (untasked : rewrite.options.tasks = false) (rooted : rewrite.aliases.Rooted)
    (stmts : List Stmt) : frameStmts (visitStmts rewrite stmts).1 = frameStmts stmts := by
  cases stmts with
  | nil => rfl
  | cons stmt rest =>
    simp only [visitStmts, frameStmts, frameStmt_visited untasked rooted stmt, frameStmts_visited untasked rooted rest]

theorem frameItem_visited (untasked : rewrite.options.tasks = false) (rooted : rewrite.aliases.Rooted)
    (item : Item) : frameItem (visitItem rewrite item).1 = frameItem item := by
  match item with
  | .use tree => rfl
  | .externCrate ident rename => rfl
  | .fn ident signature stmts =>
    simp only [visitItem, frameItem, frameNodes_visited untasked rooted signature,
      frameStmts_visited untasked rooted stmts]
  | .mod ident none => rfl
  | .mod ident (some items) => simp only [visitItem, frameItem, frameItems_visited untasked rooted items]
  | .impl header items =>
    simp only [visitItem, frameItem, frameNodes_visited untasked rooted header, frameItems_visited untasked rooted items]
  | .trait ident header items =>
    simp only [visitItem, frameItem, frameNodes_visited untasked rooted header, frameItems_visited untasked rooted items]
  | .named kind ident children => simp only [visitItem, frameItem, frameNodes_visited untasked rooted children]
  | .macroCall ident path tokens =>
    simp only [visitItem, frameItem, frameSite_treated rooted, frameSite_visited untasked rooted path]
  | .other text children => simp only [visitItem, frameItem, frameNodes_visited untasked rooted children]

theorem frameItems_visited (untasked : rewrite.options.tasks = false) (rooted : rewrite.aliases.Rooted)
    (items : List Item) : frameItems (visitItems rewrite items).1 = frameItems items := by
  cases items with
  | nil => rfl
  | cons item rest =>
    simp only [visitItems, frameItems, frameItem_visited untasked rooted item, frameItems_visited untasked rooted rest]
end

end Visitor

/-! ## Functions -/

theorem recordedPrimitives_nodup (base : Aliases) (func : ItemFn) : (recordedPrimitives base func).Nodup := by
  apply List.Nodup.filter
  decide

/-- What a rewrite leaves alone, and what it puts in place of what it does not. -/
structure KeepsFrame (rewrite : ModelRewrite) (func rewritten : ItemFn) : Prop where
  ident : rewritten.ident = func.ident
  signature : frameNodes rewritten.signature = frameNodes func.signature
  /-- One marker for each primitive that is recorded at a site, and behind the markers the function's own frame. -/
  stmts : ∃ (markers : List Unmodeled) (own : List Stmt), rewritten.stmts = markers.map markerStmt ++ own ∧
    markers.Nodup ∧ (∀ primitive, primitive ∈ markers ↔ ∃ site ∈ fnSites {} func, primitive ∈ site.flags rewrite) ∧
    frameStmts own = frameStmts func.stmts
  /-- Each site has the path it had, or what the rewriter that matches it puts there. -/
  sites : (fnSites {} rewritten).map Site.occurrence =
    (fnSites {} func).map fun site => site.occurrence.rewritten rewrite
  /-- A replaced path carries the argument lists of the matched one, in order. -/
  arguments : ∀ position (path replacement : Path Node), rewrite.treat position path = .replaced replacement →
    replacement.carried = path.carried

/-- **The frame of the rewrite.** A rewritten function differs from what it was in its markers, and in the names of
the callee, type and macro paths that a rewriter matches; these carry their argument lists along, whose own sites
are rewritten by the same rules. -/
theorem rewrite_keeps_frame {base : Aliases} (rooted : base.Rooted) (func : ItemFn) :
    KeepsFrame (fnRewrite base func) func (applyModelRewriteWithBaseAliases func base {}) := by
  have bound := fnRewrite_rooted rooted func
  constructor
  · rfl
  · exact frameNodes_visited rfl bound func.signature
  · refine ⟨recordedPrimitives base func, (visitStmts (fnRewrite base func) func.stmts).1, rfl,
      recordedPrimitives_nodup base func, mem_recordedPrimitives base {} func, ?_⟩
    exact frameStmts_visited rfl bound func.stmts
  · exact fnSites_rewritten rooted {} {} func
  · intro position path replacement replaced
    have carried := ModelRewrite.treat_carried bound position path
    rwa [replaced] at carried

/-- `fn f() { tokio::sync::mpsc::channel::<tokio::sync::Mutex<u8>>(1); }`, without its semicolon. -/
def nestedChannel : ItemFn where
  ident := "f"
  signature := []
  stmts :=
    [.expr (.exprCall (.exprPath none ⟨false, [.plain "tokio", .plain "sync", .plain "mpsc",
      ⟨"channel", .angleBracketed [.typePath none ⟨false, [.plain "tokio", .plain "sync",
        ⟨"Mutex", .angleBracketed [.other "u8" []]⟩]⟩]⟩]⟩) [.other "1" []]) false]

theorem rewrite_keeps_frame_nestedChannel :
    KeepsFrame (fnRewrite Aliases.empty nestedChannel) nestedChannel (applyModelRewrite nestedChannel) :=
  rewrite_keeps_frame Aliases.rooted_empty nestedChannel

end Laplace.Soundness
