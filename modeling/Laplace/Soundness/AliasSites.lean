import Laplace.Soundness.Counterparts
import Laplace.Soundness.Shadowing

/-! # Imported names at their sites

A name that the scopes around a site import from `tokio` should be treated there as the path it stands for. The
rewrite has one table for a whole function, made of the function's own top-level imports and of those of the
annotated modules around it. An import of a block or of a nested function is not in the table, one that shares its
name with an item of another namespace is taken out of it, and `self as name` is recorded with a `self` at its end.
-/

namespace Laplace.Soundness

open Model

/-- A function in annotated modules, innermost first, which may stand in further scopes. -/
def annotatedScope (chain : List (List Item)) (around : List Region) : Scope where
  aliases := chainAliases chain
  regions := chain.map (fun items => ⟨items, true⟩) ++ around

/-- No rewriter matches either path, and they are classified alike. -/
def AlikeUnmatched (position : Position) (path other : Path Unit) : Prop :=
  (∀ rewritten, outcome {} position path ≠ .replaced rewritten) ∧
    (∀ rewritten, outcome {} position other ≠ .replaced rewritten) ∧
    (position = .macroName ∨ classifyUnmodeled path = classifyUnmodeled other)

/-- The table has the name as what it stands for; or with a spurious `self` that no matcher notices; or it misses or
mistakes the name, and the matchers see no difference. -/
def Transparent (table : Aliases) (position : Position) (binding : Ident) (imported : List Ident)
    (arguments : PathArguments Unit) (rest : List (PathSegment Unit)) : Prop :=
  (table binding).getD [binding] = imported ∨
  (table binding = some (imported ++ ["self"]) ∧
    SelfInsensitive {} position imported.length (qualified imported arguments rest)) ∨
  ((table binding).getD [binding] ≠ imported ∧ table binding ≠ some (imported ++ ["self"]) ∧
    AlikeUnmatched position (effectivePath table ⟨false, ⟨binding, arguments⟩ :: rest⟩)
      (qualified imported arguments rest))

theorem outcome_eq_iff_alike {position : Position} {path other : Path Unit}
    (rooted : other.idents.head? = some "tokio") (different : path.idents ≠ other.idents) :
    outcome {} position path = outcome {} position other ↔ AlikeUnmatched position path other := by
  constructor
  · intro same
    have kept : ∀ rewritten, outcome {} position other ≠ .replaced rewritten := fun rewritten replaced =>
      different (idents_eq_of_replaced rooted (same.trans replaced) replaced)
    have kept' : ∀ rewritten, outcome {} position path ≠ .replaced rewritten := by
      rw [same]
      exact kept
    refine ⟨kept', kept, ?_⟩
    rw [outcome_of_not_replaced kept, outcome_of_not_replaced kept'] at same
    cases position with
    | macroName => exact .inl rfl
    | call | type => exact .inr (Outcome.ofClass_injective same)
  · rintro ⟨kept, kept', alike⟩
    rw [outcome_of_not_replaced kept, outcome_of_not_replaced kept']
    cases position with
    | macroName => rfl
    | call | type =>
      rcases alike with isMacro | alike
      · cases isMacro
      · exact congrArg Outcome.ofClass alike

/-- An imported path is expanded to what the table has for its name, or to itself. -/
theorem effectivePath_binding (table : Aliases) (binding : Ident) (arguments : PathArguments Unit)
    (rest : List (PathSegment Unit)) :
    (effectivePath table ⟨false, ⟨binding, arguments⟩ :: rest⟩) =
      qualified ((table binding).getD [binding]) arguments rest := by
  cases bound : table binding with
  | none => simp only [effectivePath, canonicalize, bound, Option.map_none, Option.getD_none]; rfl
  | some canonical => exact effectivePath_of_alias bound false arguments rest

/-- The rewrite treats the path as what its name stands for exactly if the table is transparent for it. -/
theorem treat_eq_iff_transparent (table : Aliases) (position : Position) (binding : Ident) {imported : List Ident}
    (rooted : imported.head? = some "tokio") (arguments : PathArguments Unit) (rest : List (PathSegment Unit)) :
    ModelRewrite.treat ⟨table, {}⟩ position ⟨false, ⟨binding, arguments⟩ :: rest⟩ =
        ModelRewrite.treat ⟨Aliases.empty, {}⟩ position (qualified imported arguments rest) ↔
      Transparent table position binding imported arguments rest := by
  rw [ModelRewrite.treat, ModelRewrite.treat, effectivePath_empty, Transparent, effectivePath_binding]
  change outcome {} position (qualified ((table binding).getD [binding]) arguments rest) =
    outcome {} position (qualified imported arguments rest) ↔ _
  by_cases resolved : (table binding).getD [binding] = imported
  · rw [resolved]
    exact iff_of_true rfl (.inl rfl)
  by_cases renamed : table binding = some (imported ++ ["self"])
  · rw [or_iff_right resolved, and_iff_right renamed, or_iff_left fun other => other.2.1 renamed, renamed,
      Option.getD_some]
    exact outcome_self_iff rooted {} position arguments rest
  · rw [or_iff_right resolved, or_iff_right fun other => renamed other.1, and_iff_right resolved,
      and_iff_right renamed]
    apply outcome_eq_iff_alike
    · rw [qualified_idents]
      cases imported with
      | nil => cases rooted
      | cons head more => exact rooted
    · rw [qualified_idents, qualified_idents]
      exact fun same => resolved (List.append_cancel_right same)

theorem chainAliases_rooted (chain : List (List Item)) : (chainAliases chain).Rooted := by
  induction chain with
  | nil => exact Aliases.rooted_empty
  | cons items outer ih => exact mergeAliases_rooted ih (scanUseAliasesItems_rooted items)

/-! ## The result -/

/-- **Imported names at their sites.** At a site of a function in any annotated modules, or in none, at which the scopes
around it import the first segment from `tokio`: what the function has there afterwards, and with which markers it
begins, is decided by how the rewrite treats the path, and it treats it as the path that the name stands for exactly
if its table is transparent for the name. -/
theorem alias_transparent_iff (named : Named) (chain : List (List Item)) (around : List Region) (func : ItemFn)
    (index : ℕ) (site : Site) (here : (fnSites (annotatedScope chain around) func)[index]? = some site)
    (binding : Ident) (arguments : PathArguments Unit) (rest : List (PathSegment Unit))
    (path : site.occurrence.path = ⟨false, ⟨binding, arguments⟩ :: rest⟩) (leaf : Leaf)
    (imports : tokioImport named site.regions site.occurrence.position binding (rest.map (·.ident)) = some leaf) :
    let rewrite := fnRewrite (chainAliases chain) func
    let rewritten := applyModelRewriteWithBaseAliases func (chainAliases chain) {}
    ((fnSites {} rewritten)[index]?.map Site.occurrence = some (site.occurrence.rewritten rewrite) ∧
      ∀ primitive, markerStmt primitive ∈ prependedStmts func rewritten ↔
        ∃ other ∈ fnSites (annotatedScope chain around) func, primitive ∈ other.flags rewrite) ∧
    (rewrite.treat site.occurrence.position site.occurrence.path =
        ModelRewrite.treat ⟨Aliases.empty, {}⟩ site.occurrence.position (qualified leaf.imported arguments rest) ↔
      Transparent rewrite.aliases site.occurrence.position binding leaf.imported arguments rest) := by
  refine ⟨⟨?_, fun primitive => markerStmt_prepended_iff _ _ func primitive⟩, ?_⟩
  · rw [← List.getElem?_map, fnSites_rewritten (chainAliases_rooted chain) {} (annotatedScope chain around),
      List.getElem?_map, here, Option.map_some]
  · rw [path]
    exact treat_eq_iff_transparent _ _ binding (tokioImport_rooted imports) arguments rest

/-- `use tokio::sync::mpsc as ch; ch::channel::<_>(1);` -/
def renamedChannel : ItemFn where
  ident := "open"
  signature := []
  stmts := [.item (.use (.path "tokio" (.path "sync" (.rename "mpsc" "ch")))),
    .expr (.exprCall (.exprPath none
      { segments := [⟨"ch", .none⟩, ⟨"channel", .angleBracketed [.other "_" []]⟩] }) [.other "1" []]) true]

def renamedSite : Site :=
  ((fnSites (annotatedScope [] []) renamedChannel)[0]?).get (by decide)

theorem alias_transparent_iff_renamed :
    (fnRewrite Aliases.empty renamedChannel).treat .call
        ⟨false, [⟨"ch", .none⟩, ⟨"channel", .angleBracketed ([] : List Unit)⟩]⟩ =
      ModelRewrite.treat ⟨Aliases.empty, {}⟩ .call
        (qualified ["tokio", "sync", "mpsc"] .none [⟨"channel", .angleBracketed ([] : List Unit)⟩]) :=
  have transparent := alias_transparent_iff (fun _ _ => true) [] [] renamedChannel 0 renamedSite rfl "ch" .none
    [⟨"channel", .angleBracketed ([] : List Unit)⟩] rfl ⟨["tokio", "sync"], "mpsc", some "ch"⟩ (by decide)
  transparent.2.mpr (.inl (by decide))

/-- `use tokio::sync::{self as s}; s::Mutex::new(0);` -/
def selfAlias : ItemFn where
  ident := "build"
  signature := []
  stmts := [.item (.use (.path "tokio" (.path "sync" (.group [.rename "self" "s"])))),
    .expr (.exprCall (.exprPath none { segments := [⟨"s", .none⟩, ⟨"Mutex", .none⟩, ⟨"new", .none⟩] })
      [.other "0" []]) true]

/-- `s` is `tokio::sync`, and `s::Mutex::new` is left alone where `tokio::sync::Mutex::new` is replaced. -/
theorem selfAlias_missed :
    ∃ site leaf, (fnSites {} selfAlias)[0]? = some site ∧
      site.occurrence = ⟨.call, ⟨false, [⟨"s", .none⟩, ⟨"Mutex", .none⟩, ⟨"new", .none⟩]⟩⟩ ∧
      (∀ named : Named, named .types ["tokio", "sync"] = true →
        tokioImport named site.regions .call "s" ["Mutex", "new"] = some leaf) ∧
      leaf.imported = ["tokio", "sync"] ∧
      (fnRewrite Aliases.empty selfAlias).treat .call site.occurrence.path ≠
        ModelRewrite.treat ⟨Aliases.empty, {}⟩ .call
          (qualified leaf.imported .none [⟨"Mutex", .none⟩, ⟨"new", .none⟩]) := by
  refine ⟨_, ⟨["tokio", "sync"], "self", some "s"⟩, rfl, rfl, fun named isModule => ?_, rfl, by decide⟩
  simp [tokioImport, lookup, Region.binding?, selfAlias, blockRegion, Scope.body, segmentSpace, declaredIn,
    importLeaves, itemLeaves, leaves, groupLeaves, Leaf.binding, Leaf.imported, isModule, Stmt.item?]

end Laplace.Soundness
