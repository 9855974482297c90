import Laplace.Machine.Overlay
import Laplace.Soundness.AliasTransparency
import Laplace.Soundness.Sites

/-! # Shadowing across nested scopes

An annotated module hands each of its functions a table merged from the enclosing modules, outermost
first, and the function's own imports on top. Merging only adds, so a declaration that is not a
`tokio` import hides an alias of its own scope but not one inherited from further out.
-/

namespace Laplace.Soundness

open Model

/-! ## Functions of a module -/

mutual
/-- The free functions of an item with their enclosing modules, innermost first. -/
def itemFunctions (chain : List (List Item)) : Item → List (List (List Item) × ItemFn)
  | .fn ident signature stmts => [(chain, { ident, signature, stmts })]
  | .mod _ (some items) => eachFunctions (items :: chain) items
  | _ => []

def eachFunctions (chain : List (List Item)) : List Item → List (List (List Item) × ItemFn)
  | [] => []
  | item :: rest => itemFunctions chain item ++ eachFunctions chain rest
end

/-- The free functions of an annotated module, in source order. -/
def moduleFunctions (items : List Item) : List (List (List Item) × ItemFn) := eachFunctions [items] items

/-- The table merged along a chain of modules. -/
def chainAliases : List (List Item) → Aliases
  | [] => Aliases.empty
  | items :: outer => mergeAliases (chainAliases outer) (scanUseAliasesItems items)

mutual
theorem itemFunctions_rewritten (chain after : List (List Item)) (item : Item) :
    (itemFunctions after (applyModelRewriteToItem (chainAliases chain) {} item)).map Prod.snd =
      (itemFunctions chain item).map fun found =>
        applyModelRewriteWithBaseAliases found.2 (chainAliases found.1) {} := by
  match item with
  | .fn ident signature stmts => rfl
  | .mod ident none => rfl
  | .mod ident (some items) =>
    simp only [applyModelRewriteToItem, itemFunctions]
    exact eachFunctions_rewritten (items :: chain) _ items
  | .use _ | .externCrate .. | .impl .. | .trait .. | .named .. | .macroCall .. | .other .. => rfl

theorem eachFunctions_rewritten (chain after : List (List Item)) (items : List Item) :
    (eachFunctions after (applyModelRewriteToEach (chainAliases chain) {} items)).map Prod.snd =
      (eachFunctions chain items).map fun found =>
        applyModelRewriteWithBaseAliases found.2 (chainAliases found.1) {} := by
  match items with
  | [] => rfl
  | item :: rest =>
    simp only [applyModelRewriteToEach, eachFunctions, List.map_append,
      itemFunctions_rewritten chain after item, eachFunctions_rewritten chain after rest]
end

/-- The functions of the rewritten module are those of the module, each rewritten with its chain's table. -/
theorem moduleFunctions_rewritten (items : List Item) :
    (moduleFunctions (applyModelRewriteToItems items Aliases.empty {})).map Prod.snd =
      (moduleFunctions items).map fun found =>
        applyModelRewriteWithBaseAliases found.2 (chainAliases found.1) {} :=
  eachFunctions_rewritten [items] _ items

/-! ## Declared names -/

/-- The name an item declares, also where `itemIdent` does not look. -/
def declaredIdent : Item → Option Ident
  | .externCrate ident rename => some (rename.getD ident)
  | .macroCall ident .. => ident
  | item => itemIdent item

/-- The scope declares the name by a use item or by a named item. -/
def Declares (items : List Item) (name : Ident) : Prop :=
  (∃ leaf ∈ items.flatMap itemLeaves, leaf.binding = some name) ∨ ∃ item ∈ items, declaredIdent item = some name

theorem foldl_insert_bound {recorded : List Leaf} {table : Aliases} {name : Ident}
    (bound : recorded.foldl Leaf.insert table name ≠ none) :
    table name ≠ none ∨ ∃ leaf ∈ recorded, leaf.binding = some name := by
  induction recorded generalizing table with
  | nil => exact .inl bound
  | cons leaf rest ih =>
    rcases ih bound with here | ⟨other, member, binds⟩
    · by_cases binds : leaf.binding = some name
      · exact .inr ⟨leaf, List.mem_cons_self, binds⟩
      · refine .inl fun none => here ?_
        rw [Leaf.insert_other binds, none]
    · exact .inr ⟨other, List.mem_cons_of_mem _ member, binds⟩

/-- A module scope or a function body, as a table with the names it declares. -/
def itemScope (items : List Item) : Machine.NameScope Ident (List Ident) where
  table := scanUseAliasesItems items
  declares := Declares items
  closed := by
    intro name bound
    rw [scanUseAliasesItems_eq, removeShadowedAliases_apply] at bound
    split at bound
    · exact absurd rfl bound
    · rcases foldl_insert_bound bound with empty | leaf
      · exact absurd rfl empty
      · exact .inl leaf

/-- The scopes around the paths of a function: its own statements, then the enclosing modules. -/
def functionScopes (chain : List (List Item)) (func : ItemFn) : List (Machine.NameScope Ident (List Ident)) :=
  itemScope (func.stmts.filterMap Stmt.item?) :: chain.map itemScope

theorem chainAliases_eq (chain : List (List Item)) :
    chainAliases chain = Machine.overlaid (chain.map itemScope) := by
  induction chain with
  | nil => rfl
  | cons items outer ih =>
    funext name
    rw [chainAliases, ih]
    rfl

/-- The table of a function overlays the tables of its scopes. -/
theorem fnRewrite_aliases (chain : List (List Item)) (func : ItemFn) :
    (fnRewrite (chainAliases chain) func).aliases = Machine.overlaid (functionScopes chain func) := by
  funext name
  rw [fnRewrite, chainAliases_eq]
  rfl

/-- An expansion determines the alias it went through. -/
theorem canonicalize_congr_iff {α : Type} (first second : Aliases) (leadingColon : Bool) (segment : PathSegment α)
    (rest : List (PathSegment α)) :
    canonicalize first ⟨leadingColon, segment :: rest⟩ = canonicalize second ⟨leadingColon, segment :: rest⟩ ↔
      first segment.ident = second segment.ident := by
  have injective : Function.Injective fun canonical => qualified canonical segment.arguments rest := by
    intro one other same
    have idents := congrArg Path.idents same
    simp only [qualified_idents] at idents
    exact List.append_cancel_right idents
  exact (Option.map_injective injective).eq_iff

/-! ## The result -/

/-- In every function of an annotated module, a path is expanded by the innermost declaration of its first
segment exactly when that declaration is a `tokio` import or no enclosing scope further out has one. -/
theorem expansion_respects_shadowing_iff {α : Type} (ident : Ident) (items : List Item) (index : ℕ)
    (chain : List (List Item)) (func : ItemFn) (found : (moduleFunctions items)[index]? = some (chain, func))
    (leadingColon : Bool) (segment : PathSegment α) (rest : List (PathSegment α)) :
    (∃ output, applyModelRewriteToAnnotatedMod ⟨ident, some items⟩ = .ok ⟨ident, some output⟩ ∧
      (moduleFunctions output)[index]?.map Prod.snd =
        some (applyModelRewriteWithBaseAliases func (chainAliases chain) {})) ∧
    (canonicalize (fnRewrite (chainAliases chain) func).aliases ⟨leadingColon, segment :: rest⟩ =
        canonicalize (Machine.innermost (functionScopes chain func)) ⟨leadingColon, segment :: rest⟩ ↔
      Machine.Respected (functionScopes chain func) segment.ident) := by
  constructor
  · refine ⟨_, rfl, ?_⟩
    rw [← List.getElem?_map, moduleFunctions_rewritten, List.getElem?_map, found, Option.map_some]
  · rw [canonicalize_congr_iff, fnRewrite_aliases, Machine.overlaid_eq_innermost_iff]

/-- `use tokio::sync::Mutex; mod inner { struct Mutex; fn f() { .. } }` -/
def shadowedModule : List Item :=
  [.use (.path "tokio" (.path "sync" (.name "Mutex"))),
    .mod "inner" (some [.named .struct "Mutex" [], .fn "f" [] []])]

/-- In `f`, `Mutex` is the local struct, and `Mutex::new` is expanded to `tokio::sync::Mutex::new`. -/
theorem shadowedModule_expanded :
    ∃ chain func, (moduleFunctions shadowedModule)[0]? = some (chain, func) ∧
      canonicalize (fnRewrite (chainAliases chain) func).aliases
          (⟨false, [⟨"Mutex", .none⟩, ⟨"new", .none⟩]⟩ : Path Unit) =
        some ⟨false, [⟨"tokio", .none⟩, ⟨"sync", .none⟩, ⟨"Mutex", .none⟩, ⟨"new", .none⟩]⟩ ∧
      canonicalize (Machine.innermost (functionScopes chain func))
          (⟨false, [⟨"Mutex", .none⟩, ⟨"new", .none⟩]⟩ : Path Unit) = none := by
  refine ⟨[[.named .struct "Mutex" [], .fn "f" [] []], shadowedModule], ⟨"f", [], []⟩, rfl, rfl, ?_⟩
  have outside : ¬ Declares [] "Mutex" := by simp [Declares]
  have inside : Declares [.named .struct "Mutex" [], .fn "f" [] []] "Mutex" :=
    .inr ⟨_, List.mem_cons_self, rfl⟩
  have unresolved : Machine.innermost (functionScopes
      [[.named .struct "Mutex" [], .fn "f" [] []], shadowedModule] ⟨"f", [], []⟩) "Mutex" = none := by
    rw [functionScopes, Machine.innermost]
    refine (if_neg outside).trans ?_
    rw [List.map_cons, Machine.innermost]
    exact (if_pos inside).trans rfl
  simp only [canonicalize, unresolved, Option.map_none]

/-- `use tokio::sync::Mutex; fn f() { .. }` -/
def importingModule : List Item := [.use (.path "tokio" (.path "sync" (.name "Mutex"))), .fn "f" [] []]

theorem expansion_respects_shadowing_iff_importing :
    canonicalize (fnRewrite (chainAliases [importingModule]) ⟨"f", [], []⟩).aliases
        (⟨false, [⟨"Mutex", .none⟩]⟩ : Path Unit) =
      canonicalize (Machine.innermost (functionScopes [importingModule] ⟨"f", [], []⟩))
        ⟨false, [⟨"Mutex", .none⟩]⟩ := by
  refine (expansion_respects_shadowing_iff "m" importingModule 0 [importingModule] ⟨"f", [], []⟩ rfl false
    ⟨"Mutex", .none⟩ []).2.mpr ?_
  have outside : ¬ Declares [] "Mutex" := by simp [Declares]
  refine ⟨fun declared => absurd declared outside, fun _ => ⟨fun _ unbound => ?_, fun _ => trivial⟩⟩
  exact absurd unbound (by decide)

end Laplace.Soundness
