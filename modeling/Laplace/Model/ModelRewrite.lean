import Laplace.Model.PathRewrite

/-! # The model rewrite

`ModelRewrite` visits a function depth first. After the children of a call, a type path or a macro
have been visited, its path is resolved through the alias table and handed to the matchers, which
either replace it or record an un-modeled primitive. The record only grows and no hook reads it, so a
visit returns the rewritten node with the primitives it records, in visiting order.
-/

namespace Laplace.Model

structure ModelRewriteOptions where
  /-- Route Tokio spawns through the task handle; only the task composition surface sets it. -/
  tasks : Bool := false
deriving DecidableEq, Repr

structure ModelRewrite where
  aliases : Aliases
  options : ModelRewriteOptions

/-- Where a path stands: the callee of a call, a type path, or a macro name. -/
inductive Position where
  | call
  | type
  | macroName
deriving DecidableEq, Repr

/-- What a hook does with a path. -/
inductive Outcome (α : Type) where
  | replaced (path : Path α)
  | flagged (primitive : Unmodeled)
  | untouched
deriving DecidableEq, Repr

variable {α : Type}

namespace Outcome

def path (original : Path α) : Outcome α → Path α
  | .replaced rewritten => rewritten
  | _ => original

def flags : Outcome α → List Unmodeled
  | .flagged primitive => [primitive]
  | _ => []

/-- The `if let … else if let …` chain: the first rewriter that matches wins. -/
def orElse (rewritten : Option (Path α)) (otherwise : Outcome α) : Outcome α :=
  match rewritten with
  | some path => .replaced path
  | none => otherwise

def ofClass : Option Unmodeled → Outcome α
  | some primitive => .flagged primitive
  | none => .untouched

end Outcome

def spawnTaskPath : Path α := rtPath [.plain "spawn_task"]

/-- The chain of `visit_expr_call_mut`. -/
def callOutcome (options : ModelRewriteOptions) (effective : Path α) : Outcome α :=
  if options.tasks && isTokioSpawnPath effective then .replaced spawnTaskPath
  else if isSupportedSpawnPath effective then .replaced (rtPath [.plain "spawn"])
  else .orElse (rewriteStdSyncConstructorPath effective) <|
    .orElse (rewriteTokioSyncConstructorPath effective) <|
    .orElse (rewriteTokioSyncChannelConstructorPath effective) <|
    .orElse (rewriteTokioTimeFnPath effective) <|
    .ofClass (classifyUnmodeled effective)

/-- The chain of `visit_type_path_mut`. -/
def typeOutcome (effective : Path α) : Outcome α :=
  .orElse (rewriteStdSyncTypePath effective) <|
    .orElse (rewriteTokioSyncTypePath effective) <|
    .orElse (rewriteTokioSyncChannelTypePath effective) <|
    .orElse (rewriteTokioTimeTypePath effective) <|
    .ofClass (classifyUnmodeled effective)

/-- `visit_macro_mut` only knows `tokio::select!`. -/
def macroOutcome (effective : Path α) : Outcome α :=
  if isTokioSelectMacroPath effective then .replaced (rtPath [.plain "laplace_select"]) else .untouched

def outcome (options : ModelRewriteOptions) (position : Position) (effective : Path α) : Outcome α :=
  match position with
  | .call => callOutcome options effective
  | .type => typeOutcome effective
  | .macroName => macroOutcome effective

def effectivePath (aliases : Aliases) (path : Path α) : Path α := (canonicalize aliases path).getD path

/-- What the hooks do with a path whose children have been visited. -/
def ModelRewrite.treat (rewrite : ModelRewrite) (position : Position) (path : Path α) : Outcome α :=
  outcome rewrite.options position (effectivePath rewrite.aliases path)

/-- The callee of a discarded `tokio::spawn` call. It matches only paths without arguments, which have
no children, so it commutes with visiting them. -/
def ModelRewrite.rewriteDiscardedSpawn (rewrite : ModelRewrite) : Node → Node
  | .exprPath qself path =>
      if isTokioSpawnPath (effectivePath rewrite.aliases path) then .exprPath qself spawnTaskPath
      else .exprPath qself path
  | func => func

/-- The hook of a call, run after its callee and arguments have been visited. -/
def ModelRewrite.visitExprCall (rewrite : ModelRewrite) (func : Node) (args : List Node) :
    Node × List Unmodeled :=
  match func with
  | .exprPath qself path =>
      let treated := rewrite.treat .call path
      (.exprCall (.exprPath qself (treated.path path)) args, treated.flags)
  | _ => (.exprCall func args, [])

section Visitor

variable (rewrite : ModelRewrite)

mutual
/-- `discarded` is set on the expression of a statement whose value is thrown away. -/
def visitNode (discarded : Bool) : Node → Node × List Unmodeled
  | .exprPath qself path =>
      let qself := visitOption false qself
      let path := visitPath path
      (.exprPath qself.1 path.1, qself.2 ++ path.2)
  | .exprCall func args =>
      let func := visitNode false func
      let args := visitNodes args
      let callee := if discarded then rewrite.rewriteDiscardedSpawn func.1 else func.1
      let call := rewrite.visitExprCall callee args.1
      (call.1, func.2 ++ args.2 ++ call.2)
  | .typePath qself path =>
      let qself := visitOption false qself
      let path := visitPath path
      let treated := rewrite.treat .type path.1
      (.typePath qself.1 (treated.path path.1), qself.2 ++ path.2 ++ treated.flags)
  | .macroCall path tokens =>
      let path := visitPath path
      let treated := rewrite.treat .macroName path.1
      (.macroCall (treated.path path.1) tokens, path.2 ++ treated.flags)
  | .wild => (.wild, [])
  | .block text stmts =>
      let stmts := visitStmts stmts
      (.block text stmts.1, stmts.2)
  | .other text children =>
      let children := visitNodes children
      (.other text children.1, children.2)

def visitOption (discarded : Bool) : Option Node → Option Node × List Unmodeled
  | none => (none, [])
  | some node =>
      let node := visitNode discarded node
      (some node.1, node.2)

def visitNodes : List Node → List Node × List Unmodeled
  | [] => ([], [])
  | node :: rest =>
      let node := visitNode false node
      let rest := visitNodes rest
      (node.1 :: rest.1, node.2 ++ rest.2)

def visitPath : Path Node → Path Node × List Unmodeled
  | ⟨leadingColon, segments⟩ =>
      let segments := visitSegments segments
      (⟨leadingColon, segments.1⟩, segments.2)

def visitSegments : List (PathSegment Node) → List (PathSegment Node) × List Unmodeled
  | [] => ([], [])
  | ⟨ident, arguments⟩ :: rest =>
      let arguments := visitArguments arguments
      let rest := visitSegments rest
      (⟨ident, arguments.1⟩ :: rest.1, arguments.2 ++ rest.2)

def visitArguments : PathArguments Node → PathArguments Node × List Unmodeled
  | .none => (.none, [])
  | .angleBracketed args =>
      let args := visitNodes args
      (.angleBracketed args.1, args.2)
  | .parenthesized args =>
      let args := visitNodes args
      (.parenthesized args.1, args.2)

def visitStmt : Stmt → Stmt × List Unmodeled
  | .local pat init diverge =>
      let init := visitOption (rewrite.options.tasks && pat.isWild) init
      let pat := visitNode false pat
      let diverge := visitOption false diverge
      (.local pat.1 init.1 diverge.1, pat.2 ++ init.2 ++ diverge.2)
  | .item item =>
      let item := visitItem item
      (.item item.1, item.2)
  | .expr expr semi =>
      let expr := visitNode (rewrite.options.tasks && semi) expr
      (.expr expr.1 semi, expr.2)
  | .macroCall path tokens =>
      let path := visitPath path
      let treated := rewrite.treat .macroName path.1
      (.macroCall (treated.path path.1) tokens, path.2 ++ treated.flags)

def visitStmts : List Stmt → List Stmt × List Unmodeled
  | [] => ([], [])
  | stmt :: rest =>
      let stmt := visitStmt stmt
      let rest := visitStmts rest
      (stmt.1 :: rest.1, stmt.2 ++ rest.2)

/-- Items inside a function are visited with the function's own alias table. -/
def visitItem : Item → Item × List Unmodeled
  | .use tree => (.use tree, [])
  | .externCrate ident rename => (.externCrate ident rename, [])
  | .fn ident signature stmts =>
      let signature := visitNodes signature
      let stmts := visitStmts stmts
      (.fn ident signature.1 stmts.1, signature.2 ++ stmts.2)
  | .mod ident none => (.mod ident none, [])
  | .mod ident (some items) =>
      let items := visitItems items
      (.mod ident (some items.1), items.2)
  | .impl header items =>
      let header := visitNodes header
      let items := visitItems items
      (.impl header.1 items.1, header.2 ++ items.2)
  | .trait ident header items =>
      let header := visitNodes header
      let items := visitItems items
      (.trait ident header.1 items.1, header.2 ++ items.2)
  | .named kind ident children =>
      let children := visitNodes children
      (.named kind ident children.1, children.2)
  | .macroCall ident path tokens =>
      let path := visitPath path
      let treated := rewrite.treat .macroName path.1
      (.macroCall ident (treated.path path.1) tokens, path.2 ++ treated.flags)
  | .other text children =>
      let children := visitNodes children
      (.other text children.1, children.2)

def visitItems : List Item → List Item × List Unmodeled
  | [] => ([], [])
  | item :: rest =>
      let item := visitItem item
      let rest := visitItems rest
      (item.1 :: rest.1, item.2 ++ rest.2)
end

end Visitor

/-! ## Markers and entry points -/

/-- `let _ = ::laplace_sdk::rt::unmodeled::MARKER;`. -/
def markerStmt (primitive : Unmodeled) : Stmt :=
  .local .wild (some (.exprPath none (rtPath [.plain "unmodeled", .plain primitive.markerIdent]))) none

/-- The iteration order of the recorded set. -/
def Unmodeled.order : List Unmodeled := [.condvar, .atomic, .channel, .tokioSpawn, .tokioTime, .arcSwap]

/-- One marker for each distinct primitive, before the function's own statements. -/
def injectUnmodeledMarkers (unmodeled : List Unmodeled) (stmts : List Stmt) : List Stmt :=
  (Unmodeled.order.filter unmodeled.contains).map markerStmt ++ stmts

def applyModelRewriteWithBaseAliases (func : ItemFn) (baseAliases : Aliases) (options : ModelRewriteOptions) :
    ItemFn :=
  let aliases := mergeAliases baseAliases (scanUseAliasesStmts func.stmts)
  let rewrite : ModelRewrite := { aliases, options }
  let signature := visitNodes rewrite func.signature
  let stmts := visitStmts rewrite func.stmts
  { func with
    signature := signature.1
    stmts := injectUnmodeledMarkers (signature.2 ++ stmts.2) stmts.1 }

def applyModelRewriteWithOptions (func : ItemFn) (options : ModelRewriteOptions) : ItemFn :=
  applyModelRewriteWithBaseAliases func Aliases.empty options

def applyModelRewrite (func : ItemFn) : ItemFn := applyModelRewriteWithOptions func {}

mutual
/-- One item of a module scope: functions are rewritten, inline modules entered, the rest left alone. -/
def applyModelRewriteToItem (scopeAliases : Aliases) (options : ModelRewriteOptions) : Item → Item
  | .fn ident signature stmts =>
      (applyModelRewriteWithBaseAliases { ident, signature, stmts } scopeAliases options).toItem
  | .mod ident (some items) =>
      let aliases := mergeAliases scopeAliases (scanUseAliasesItems items)
      .mod ident (some (applyModelRewriteToEach aliases options items))
  | item => item

def applyModelRewriteToEach (scopeAliases : Aliases) (options : ModelRewriteOptions) : List Item → List Item
  | [] => []
  | item :: rest =>
      applyModelRewriteToItem scopeAliases options item :: applyModelRewriteToEach scopeAliases options rest
end

def applyModelRewriteToItems (items : List Item) (baseAliases : Aliases) (options : ModelRewriteOptions) :
    List Item :=
  applyModelRewriteToEach (mergeAliases baseAliases (scanUseAliasesItems items)) options items

def outOfLineMessage : String :=
  "`#[laplace::model]` cannot see the contents of an out-of-line `mod foo;` (a " ++
  "proc-macro only receives the annotated item's own tokens); annotate an inline " ++
  "module (`mod foo \x7b ... \x7d`) or annotate the `fn` directly"

/-- An out-of-line module is rejected: its contents are not among the annotated tokens. -/
def applyModelRewriteToAnnotatedMod (itemMod : ItemMod) : Except String ItemMod :=
  match itemMod.content with
  | none => .error outOfLineMessage
  | some items => .ok { itemMod with content := some (applyModelRewriteToItems items Aliases.empty {}) }

end Laplace.Model
