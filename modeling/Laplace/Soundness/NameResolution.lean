import Laplace.Soundness.AliasTable

/-! # Names in scope

What a path stands for by the language's rules: its first segment is looked up in the blocks around it, innermost
first, up to the next module, in the namespace that the segment needs. An item hides an import of the same name
only in the item's own namespace. In which namespaces an import binds its name depends on the crates it imports
from, which are a parameter. Local variables and generic parameters are not items, and paths through `self`,
`super`, `crate` or a local module are left as they are written.
-/

namespace Laplace.Soundness

open Model

inductive Namespace where
  | types
  | values
  | macros
deriving DecidableEq, Repr

/-- Where a path of one segment is looked up. -/
def Position.space : Position → Namespace
  | .call => .values
  | .type => .types
  | .macroName => .macros

/-- The items directly in a block or in a module. -/
structure Region where
  items : List Item
  /-- What is further out is not visible in a module. -/
  isModule : Bool

def blockRegion (stmts : List Stmt) : Region := ⟨stmts.filterMap Stmt.item?, false⟩

/-- The name of an item, in its namespace. The constructor of a tuple struct is not counted. -/
def declaredIn : Item → Option (Namespace × Ident)
  | .fn ident .. | .named .const ident _ | .named .static ident _ => some (.values, ident)
  | .mod ident _ | .trait ident .. | .named _ ident _ => some (.types, ident)
  | .macroCall ident .. => ident.map fun ident => (.macros, ident)
  | _ => none

/-- The named imports of an item; `extern crate` imports a crate. -/
def importLeaves : Item → List Leaf
  | .externCrate ident rename => [⟨[], ident, rename⟩]
  | item => itemLeaves item

mutual
/-- The modules a use tree imports as a whole. -/
def globs : UseTree → List Ident → List (List Ident)
  | .path ident tree, lead => globs tree (lead ++ [ident])
  | .group items, lead => groupGlobs items lead
  | .glob, lead => [lead]
  | .name _, _ | .rename .., _ => []

def groupGlobs : List UseTree → List Ident → List (List Ident)
  | [], _ => []
  | item :: rest, lead => globs item lead ++ groupGlobs rest lead
end

def itemGlobs : Item → List (List Ident)
  | .use tree => globs tree []
  | _ => []

/-- What a name is in a scope. -/
inductive Binding where
  | item
  | imported (leaf : Leaf)
  | glob (path : List Ident)
deriving DecidableEq

/-- The path that an import stands for. -/
def Binding.path? : Binding → Option (List Ident)
  | .item => none
  | .imported leaf => some leaf.imported
  | .glob path => some path

/-- Whether a path, as an import has it, names something in a namespace. -/
abbrev Named := Namespace → List Ident → Bool

/-- A name in one scope: an item, an import by name, or one by a glob. -/
def Region.binding? (named : Named) (space : Namespace) (name : Ident) (region : Region) : Option Binding :=
  if region.items.any fun item => declaredIn item == some (space, name) then some .item
  else
    let leaf := (region.items.flatMap importLeaves).find? fun leaf =>
      leaf.binding == some name && named space leaf.imported
    let lead := (region.items.flatMap itemGlobs).find? fun lead => named space (lead ++ [name])
    (leaf.map .imported).or (lead.map fun lead => .glob (lead ++ [name]))

/-- The innermost scope that has the name, with the scopes around it. -/
def lookup (named : Named) (space : Namespace) (name : Ident) : List Region → Option (Binding × List Region)
  | [] => none
  | region :: outer =>
    match region.binding? named space name with
    | some binding => some (binding, region :: outer)
    | none => if region.isModule then none else lookup named space name outer

/-- What a segment is looked up as: a segment that others follow names a module or a type. -/
def segmentSpace (space : Namespace) (rest : List Ident) : Namespace := if rest = [] then space else .types

/-- The path that imports make of a path. The path of an import from elsewhere is looked up where the import is. -/
def resolve (named : Named) : ℕ → List Region → Namespace → List Ident → List Ident
  | fuel + 1, regions, space, first :: rest =>
    match lookup named (segmentSpace space rest) first regions with
    | some (binding, around) =>
      match binding.path? with
      | some (head :: more) =>
        if head = "tokio" then head :: (more ++ rest) else resolve named fuel around space (head :: (more ++ rest))
      | _ => first :: rest
    | none => first :: rest
  | _, _, _, path => path

theorem mem_resolve {named : Named} {fuel : ℕ} {regions : List Region} {space : Namespace} {first ident : Ident}
    {rest : List Ident} (member : ident ∈ rest) : ident ∈ resolve named fuel regions space (first :: rest) := by
  induction fuel generalizing regions first rest with
  | zero => exact List.mem_cons_of_mem _ member
  | succ fuel ih =>
    rw [resolve]
    split
    · split
      · split
        · exact List.mem_cons_of_mem _ (List.mem_append_right _ member)
        · exact ih (List.mem_append_right _ member)
      · exact List.mem_cons_of_mem _ member
    · exact List.mem_cons_of_mem _ member

/-- No path goes through more imports than there are. -/
def importCount (regions : List Region) : ℕ :=
  let items := regions.flatMap Region.items
  (items.flatMap importLeaves).length + (items.flatMap itemGlobs).length

/-- The path with its imports expanded; a path with a leading colon starts at a crate. -/
def denotedIdents (named : Named) (regions : List Region) (position : Position) (path : Path Unit) : List Ident :=
  if path.leadingColon then path.idents
  else resolve named (importCount regions) regions (Position.space position) path.idents

/-- The canonical path: imports are expanded where they lead to `tokio`, and other paths stand as written. -/
def canonicalIdents (named : Named) (regions : List Region) (position : Position) (path : Path Unit) : List Ident :=
  if (denotedIdents named regions position path).head? = some "tokio" then denotedIdents named regions position path
  else path.idents

theorem canonicalIdents_cases (named : Named) (regions : List Region) (position : Position) (path : Path Unit) :
    canonicalIdents named regions position path = path.idents ∨
      (canonicalIdents named regions position path).head? = some "tokio" := by
  rw [canonicalIdents]
  split
  · next rooted => exact .inr rooted
  · exact .inl rfl

/-- The canonical path keeps what follows the first segment. -/
theorem mem_canonicalIdents {named : Named} {regions : List Region} {position : Position} {path : Path Unit}
    {first ident : Ident} {rest : List Ident} (written : path.idents = first :: rest) (member : ident ∈ rest) :
    ident ∈ canonicalIdents named regions position path := by
  rw [canonicalIdents]
  split
  · rw [denotedIdents]
    split
    · rw [written]
      exact List.mem_cons_of_mem _ member
    · rw [written]
      exact mem_resolve member
  · rw [written]
    exact List.mem_cons_of_mem _ member

/-- The named import from `tokio` that the first segment of a path stands for. -/
def tokioImport (named : Named) (regions : List Region) (position : Position) (binding : Ident)
    (rest : List Ident) : Option Leaf :=
  match lookup named (segmentSpace (Position.space position) rest) binding regions with
  | some (.imported leaf, _) => if leaf.imported.head? = some "tokio" then some leaf else none
  | _ => none

theorem tokioImport_rooted {named : Named} {regions : List Region} {position : Position} {binding : Ident}
    {rest : List Ident} {leaf : Leaf} (imports : tokioImport named regions position binding rest = some leaf) :
    leaf.imported.head? = some "tokio" := by
  unfold tokioImport at imports
  split at imports
  · next found _ _ =>
    split at imports
    · next rooted => exact Option.some.inj imports ▸ rooted
    · cases imports
  · cases imports

end Laplace.Soundness
