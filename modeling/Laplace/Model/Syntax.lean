import Mathlib.Data.List.Basic

/-! # The syntax tree the macros rewrite

The part of `syn`'s tree that the model rewrite looks at, with every other node kept as its own text
and the children the default visitor walks, in visiting order. Three node sorts follow `syn`:
statements, items, and `Node` for expressions, types, patterns and generic arguments. Attributes,
visibilities and the position field of a qualified self type are left out: no visitor hook reads or
changes them, and they hold no call, type or macro.

Paths are generic in what their arguments hold, since no matcher looks inside the arguments.
-/

namespace Laplace.Model

/-- Identifiers are their text. -/
abbrev Ident := String

inductive PathArguments (α : Type) where
  | none
  | angleBracketed (args : List α)
  | parenthesized (args : List α)
deriving DecidableEq, Repr

structure PathSegment (α : Type) where
  ident : Ident
  arguments : PathArguments α := .none
deriving DecidableEq, Repr

structure Path (α : Type) where
  leadingColon : Bool := false
  segments : List (PathSegment α)
deriving DecidableEq, Repr

inductive UseTree where
  | path (ident : Ident) (tree : UseTree)
  | name (ident : Ident)
  | rename (ident rename : Ident)
  | glob
  | group (items : List UseTree)
deriving Repr

/-- Named item kinds without statements of their own. -/
inductive ItemKind where
  | struct
  | enum
  | union
  | type
  | const
  | static
  | traitAlias
deriving DecidableEq, Repr

mutual
/-- Expressions, types, patterns and generic arguments. -/
inductive Node where
  /-- `Expr::Path`. -/
  | exprPath (qself : Option Node) (path : Path Node)
  | exprCall (func : Node) (args : List Node)
  /-- `Type::Path`. -/
  | typePath (qself : Option Node) (path : Path Node)
  /-- A macro invocation; its body is an opaque token stream. -/
  | macroCall (path : Path Node) (tokens : String)
  /-- `Pat::Wild`. -/
  | wild
  | block (text : String) (stmts : List Stmt)
  /-- Any other node: its own tokens and its visited children. -/
  | other (text : String) (children : List Node)

inductive Stmt where
  /-- `let pat = init else diverge;`. -/
  | local (pat : Node) (init diverge : Option Node)
  | item (item : Item)
  | expr (expr : Node) (semi : Bool)
  | macroCall (path : Path Node) (tokens : String)

/-- Items, and the associated items of `impl` blocks and traits. -/
inductive Item where
  | use (tree : UseTree)
  | externCrate (ident : Ident) (rename : Option Ident)
  /-- A function with a body: free, associated, or a trait's default method. -/
  | fn (ident : Ident) (signature : List Node) (stmts : List Stmt)
  /-- `mod ident;` has no content. -/
  | mod (ident : Ident) (content : Option (List Item))
  | impl (header : List Node) (items : List Item)
  | trait (ident : Ident) (header : List Node) (items : List Item)
  | named (kind : ItemKind) (ident : Ident) (children : List Node)
  /-- `Item::Macro`, with the name `macro_rules!` declares. -/
  | macroCall (ident : Option Ident) (path : Path Node) (tokens : String)
  | other (text : String) (children : List Node)
end

structure ItemFn where
  ident : Ident
  signature : List Node
  stmts : List Stmt

def ItemFn.toItem (func : ItemFn) : Item := .fn func.ident func.signature func.stmts

structure ItemMod where
  ident : Ident
  content : Option (List Item)

def Node.isWild : Node → Bool
  | .wild => true
  | _ => false

def PathArguments.isNone {α : Type} : PathArguments α → Bool
  | .none => true
  | _ => false

def Path.idents {α : Type} (path : Path α) : List Ident := path.segments.map (·.ident)

end Laplace.Model
