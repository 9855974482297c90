import Laplace.Soundness.Matchers

/-! # Import alias tables

What `collect_use_aliases` records, as a function of the leaves of a use tree: the tree is flattened to
its leaves, and the table is the fold of the leaves' insertions. Every alias is rooted at `tokio`.
-/

namespace Laplace.Soundness

open Model

/-- A leaf of a use tree below its segments: what the source binds and what the table records. -/
structure Leaf where
  /-- Segments above the leaf. -/
  lead : List Ident
  /-- The imported identifier; `self` names the segments above it. -/
  ident : Ident
  /-- The new name of `ident as name`. -/
  rename : Option Ident
deriving DecidableEq, Repr

mutual
/-- The leaves of a use tree; a glob has none. -/
def leaves : UseTree → List Ident → List Leaf
  | .path ident tree, lead => leaves tree (lead ++ [ident])
  | .name ident, lead => [⟨lead, ident, none⟩]
  | .rename ident rename, lead => [⟨lead, ident, some rename⟩]
  | .group items, lead => groupLeaves items lead
  | .glob, _ => []

def groupLeaves : List UseTree → List Ident → List Leaf
  | [], _ => []
  | item :: rest, lead => leaves item lead ++ groupLeaves rest lead
end

/-- The name a leaf binds by the language's rules. `as _` binds `_`, which starts no path. -/
def Leaf.binding (leaf : Leaf) : Option Ident :=
  match leaf.rename with
  | some rename => some rename
  | none => if leaf.ident = "self" then leaf.lead.getLast? else some leaf.ident

/-- The segments the table records for a leaf. -/
def Leaf.recorded (leaf : Leaf) : List Ident :=
  match leaf.rename with
  | some _ => leaf.lead ++ [leaf.ident]
  | none => if leaf.ident = "self" then leaf.lead else leaf.lead ++ [leaf.ident]

/-- The path a leaf imports by the language's rules. -/
def Leaf.imported (leaf : Leaf) : List Ident :=
  if leaf.ident = "self" then leaf.lead else leaf.lead ++ [leaf.ident]

/-- The table after a leaf. -/
def Leaf.insert (table : Aliases) (leaf : Leaf) : Aliases :=
  match leaf.binding with
  | some binding => insertTokioAlias table binding leaf.recorded
  | none => table

mutual
theorem collectUseAliases_eq (tree : UseTree) (lead : List Ident) (table : Aliases) :
    collectUseAliases tree lead table = (leaves tree lead).foldl Leaf.insert table := by
  cases tree with
  | path ident tree => rw [collectUseAliases, collectUseAliases_eq tree, leaves]
  | name ident =>
    simp only [collectUseAliases, leaves, List.foldl_cons, List.foldl_nil, Leaf.insert, Leaf.binding,
      Leaf.recorded]
    split
    · cases lead.getLast? <;> rfl
    · rfl
  | rename ident rename => rfl
  | glob => rfl
  | group items => rw [collectUseAliases, collectGroupAliases_eq items, leaves]

theorem collectGroupAliases_eq (items : List UseTree) (lead : List Ident) (table : Aliases) :
    collectGroupAliases items lead table = (groupLeaves items lead).foldl Leaf.insert table := by
  cases items with
  | nil => rfl
  | cons item rest =>
    rw [collectGroupAliases, collectUseAliases_eq item, collectGroupAliases_eq rest, groupLeaves,
      List.foldl_append]
end

def itemLeaves : Item → List Leaf
  | .use tree => leaves tree []
  | _ => []

/-- A scope's table: the leaves of its use items inserted in order, then the names of its items removed. -/
theorem scanUseAliasesItems_eq (items : List Item) :
    scanUseAliasesItems items = removeShadowedAliases
      ((items.flatMap itemLeaves).foldl Leaf.insert Aliases.empty) (items.filterMap itemIdent) := by
  have folded (table : Aliases) :
      items.foldl collectItemAliases table = (items.flatMap itemLeaves).foldl Leaf.insert table := by
    induction items generalizing table with
    | nil => rfl
    | cons item rest ih =>
      rw [List.foldl_cons, ih, List.flatMap_cons, List.foldl_append]
      congr 1
      cases item with
      | use tree => exact collectUseAliases_eq tree [] table
      | externCrate | fn | mod | impl | trait | named | macroCall | other => rfl
  rw [scanUseAliasesItems, folded]

/-- A change that leaves use items and declared names alone leaves the table. -/
theorem scanUseAliasesItems_map {change : Item → Item} (leaf : ∀ item, itemLeaves (change item) = itemLeaves item)
    (ident : ∀ item, itemIdent (change item) = itemIdent item) (items : List Item) :
    scanUseAliasesItems (items.map change) = scanUseAliasesItems items := by
  have idents : itemIdent ∘ change = itemIdent := funext ident
  rw [scanUseAliasesItems_eq, scanUseAliasesItems_eq, List.flatMap_map, List.filterMap_map, idents]
  simp only [leaf]

theorem removeShadowedAliases_apply (table : Aliases) (idents : List Ident) (binding : Ident) :
    removeShadowedAliases table idents binding = if binding ∈ idents then none else table binding := by
  induction idents generalizing table with
  | nil => rfl
  | cons ident rest ih =>
    rw [removeShadowedAliases, List.foldl_cons]
    change removeShadowedAliases _ rest binding = _
    rw [ih, Function.update_apply]
    by_cases later : binding ∈ rest
    · simp only [later, ↓reduceIte, List.mem_cons, or_true]
    · by_cases here : binding = ident
      · simp only [here, ↓reduceIte, List.mem_cons, true_or, ite_self]
      · simp only [later, here, ↓reduceIte, List.mem_cons, or_self]

/-! ## Rooted tables -/

theorem Aliases.rooted_empty : Aliases.empty.Rooted := fun _ _ bound => absurd bound (by simp [Aliases.empty])

theorem mergeAliases_rooted {base overlay : Aliases} (baseRooted : base.Rooted) (overlayRooted : overlay.Rooted) :
    (mergeAliases base overlay).Rooted := by
  intro binding canonical bound
  rcases Option.or_eq_some_iff.mp bound with above | ⟨-, below⟩
  · exact overlayRooted binding canonical above
  · exact baseRooted binding canonical below

theorem insertTokioAlias_rooted {table : Aliases} (rooted : table.Rooted) (binding : Ident)
    (canonical : List Ident) : (insertTokioAlias table binding canonical).Rooted := by
  intro other found bound
  rw [insertTokioAlias] at bound
  split at bound
  next tokio =>
    rw [Function.update_apply] at bound
    split at bound
    · obtain rfl := Option.some.inj bound
      exact tokio
    · exact rooted other found bound
  next => exact rooted other found bound

theorem foldl_insert_rooted {table : Aliases} (rooted : table.Rooted) (recorded : List Leaf) :
    (recorded.foldl Leaf.insert table).Rooted := by
  induction recorded generalizing table with
  | nil => exact rooted
  | cons leaf rest ih =>
    refine ih ?_
    rw [Leaf.insert]
    cases leaf.binding with
    | none => exact rooted
    | some binding => exact insertTokioAlias_rooted rooted binding leaf.recorded

theorem scanUseAliasesItems_rooted (items : List Item) : (scanUseAliasesItems items).Rooted := by
  intro binding canonical bound
  rw [scanUseAliasesItems_eq, removeShadowedAliases_apply] at bound
  split at bound
  · exact absurd bound (by simp)
  · exact foldl_insert_rooted Aliases.rooted_empty _ binding canonical bound

end Laplace.Soundness
