import Laplace.Soundness.Shadowing

/-! # Coverage of an annotated module

The module pass visits the free functions of the module and of its inline modules, each whole, with one
alias table per free function. Methods of `impl` blocks and traits at module level are never visited, and
a function nested in a body is visited with the table of the free function around it.
-/

namespace Laplace.Soundness

open Model

/-- A free function of the module and the table of its enclosing modules. -/
structure Host where
  base : Aliases
  func : ItemFn

def Host.rewrite (host : Host) : ModelRewrite := fnRewrite host.base host.func

def Host.rewritten (host : Host) : ItemFn := applyModelRewriteWithBaseAliases host.func host.base {}

mutual
/-- The sites of an item, each with the free function the pass visits it in. -/
def hostedItem (scope : Scope) : Item → List (Site × Option Host)
  | .fn ident signature stmts =>
      (fnSites scope { ident, signature, stmts }).map fun site =>
        (site, some ⟨scope.aliases, { ident, signature, stmts }⟩)
  | .mod _ (some items) => hostedEach (scope.module items) items
  | item => (sitesItem scope item).map fun site => (site, none)

def hostedEach (scope : Scope) : List Item → List (Site × Option Host)
  | [] => []
  | item :: rest => hostedItem scope item ++ hostedEach scope rest
end

/-- The sites of an annotated module, in source order. -/
def moduleSites (items : List Item) : List Site := sitesItems (Scope.module {} items) items

def moduleHosts (items : List Item) : List (Site × Option Host) := hostedEach (Scope.module {} items) items

mutual
theorem hostedItem_sites (scope : Scope) (item : Item) :
    (hostedItem scope item).map Prod.fst = sitesItem scope item := by
  match item with
  | .fn ident signature stmts =>
    rw [hostedItem, List.map_map]
    exact List.map_id _
  | .mod ident none => rfl
  | .mod ident (some items) => exact hostedEach_sites (scope.module items) items
  | .use _ | .externCrate .. | .impl .. | .trait .. | .named .. | .macroCall .. | .other .. =>
    rw [hostedItem, List.map_map]
    · exact List.map_id _
    all_goals simp

theorem hostedEach_sites (scope : Scope) (items : List Item) :
    (hostedEach scope items).map Prod.fst = sitesItems scope items := by
  match items with
  | [] => rfl
  | item :: rest =>
    rw [hostedEach, List.map_append, hostedItem_sites scope item, hostedEach_sites scope rest, sitesItems]
end

/-- What the pass does at a site. -/
def passOutcome (found : Site × Option Host) : Outcome Unit :=
  match found.2 with
  | some host => host.rewrite.treat found.1.occurrence.position found.1.occurrence.path
  | none => .untouched

/-- What the pass leaves at a site. -/
def passOccurrence (found : Site × Option Host) : Occurrence :=
  ⟨found.1.occurrence.position, (passOutcome found).path found.1.occurrence.path⟩

/-- The pass leaves use items and declared names alone, so a module's own table does not change. -/
theorem scan_rewritten (aliases : Aliases) (items : List Item) :
    scanUseAliasesItems (applyModelRewriteToEach aliases {} items) = scanUseAliasesItems items := by
  have each : applyModelRewriteToEach aliases {} items = items.map (applyModelRewriteToItem aliases {}) := by
    induction items with
    | nil => rfl
    | cons item rest ih => rw [applyModelRewriteToEach, ih, List.map_cons]
  rw [each]
  apply scanUseAliasesItems_map
  · intro item
    match item with
    | .mod ident none | .mod ident (some items) => rfl
    | .fn .. | .use _ | .externCrate .. | .impl .. | .trait .. | .named .. | .macroCall .. | .other .. => rfl
  · intro item
    match item with
    | .mod ident none | .mod ident (some items) => rfl
    | .fn .. | .use _ | .externCrate .. | .impl .. | .trait .. | .named .. | .macroCall .. | .other .. => rfl

/-- Items the pass does not enter keep their sites. -/
theorem unhosted_occurrences (scope before : Scope) (item : Item) :
    (sitesItem scope item).map Site.occurrence =
      ((sitesItem before item).map fun site => (site, (none : Option Host))).map passOccurrence := by
  rw [List.map_map, sitesItem_occurrences scope before]
  rfl

mutual
theorem hostedItem_rewritten (scope before : Scope) (same : scope.aliases = before.aliases)
    (rooted : before.aliases.Rooted) (item : Item) :
    (sitesItem scope (applyModelRewriteToItem before.aliases {} item)).map Site.occurrence =
      (hostedItem before item).map passOccurrence := by
  match item with
  | .fn ident signature stmts =>
    rw [hostedItem, List.map_map]
    exact fnSites_rewritten rooted scope before { ident, signature, stmts }
  | .mod ident none => rfl
  | .mod ident (some items) =>
    rw [applyModelRewriteToItem, sitesItem, hostedItem]
    refine hostedEach_rewritten _ (before.module items) ?_
      (mergeAliases_rooted rooted (scanUseAliasesItems_rooted items)) items
    simp only [Scope.module, scan_rewritten, same]
  | .use _ | .externCrate .. | .impl .. | .trait .. | .named .. | .macroCall .. | .other .. =>
    exact unhosted_occurrences scope before _

theorem hostedEach_rewritten (scope before : Scope) (same : scope.aliases = before.aliases)
    (rooted : before.aliases.Rooted) (items : List Item) :
    (sitesItems scope (applyModelRewriteToEach before.aliases {} items)).map Site.occurrence =
      (hostedEach before items).map passOccurrence := by
  match items with
  | [] => rfl
  | item :: rest =>
    rw [applyModelRewriteToEach, sitesItems, List.map_append, hostedItem_rewritten scope before same rooted item,
      hostedEach_rewritten scope before same rooted rest, hostedEach, List.map_append]
end

theorem moduleSites_rewritten (items : List Item) :
    (moduleSites (applyModelRewriteToItems items Aliases.empty {})).map Site.occurrence =
      (moduleHosts items).map passOccurrence := by
  refine hostedEach_rewritten _ (Scope.module {} items) ?_
    (mergeAliases_rooted Aliases.rooted_empty (scanUseAliasesItems_rooted items)) items
  simp only [Scope.module, applyModelRewriteToItems, scan_rewritten]

mutual
/-- The host of a site is a function of the module, and the site is one of its sites. -/
theorem hostedItem_mem {scope : Scope} {chain : List (List Item)} (aliases : scope.aliases = chainAliases chain)
    {item : Item} {site : Site} {host : Host} (member : (site, some host) ∈ hostedItem scope item) :
    (∃ found ∈ itemFunctions chain item, host.base = chainAliases found.1 ∧ host.func = found.2) ∧
      ∃ before, site ∈ fnSites before host.func := by
  match item with
  | .fn ident signature stmts =>
    obtain ⟨found, inside, same⟩ := List.mem_map.mp member
    obtain ⟨rfl, hosted⟩ := Prod.mk.inj same
    obtain rfl := Option.some.inj hosted
    exact ⟨⟨_, List.mem_singleton_self _, aliases, rfl⟩, scope, inside⟩
  | .mod ident none => exact absurd member List.not_mem_nil
  | .mod ident (some items) =>
    have deeper : (scope.module items).aliases = chainAliases (items :: chain) := by
      rw [Scope.module, chainAliases, aliases]
    exact hostedEach_mem deeper member
  | .use _ | .externCrate .. | .impl .. | .trait .. | .named .. | .macroCall .. | .other .. =>
    obtain ⟨found, -, same⟩ := List.mem_map.mp member
    exact absurd (Prod.mk.inj same).2 (by simp)

theorem hostedEach_mem {scope : Scope} {chain : List (List Item)} (aliases : scope.aliases = chainAliases chain)
    {items : List Item} {site : Site} {host : Host} (member : (site, some host) ∈ hostedEach scope items) :
    (∃ found ∈ eachFunctions chain items, host.base = chainAliases found.1 ∧ host.func = found.2) ∧
      ∃ before, site ∈ fnSites before host.func := by
  match items with
  | [] => exact absurd member List.not_mem_nil
  | item :: rest =>
    rcases List.mem_append.mp member with here | later
    · obtain ⟨⟨found, inside, same⟩, within⟩ := hostedItem_mem aliases here
      exact ⟨⟨found, List.mem_append_left _ inside, same⟩, within⟩
    · obtain ⟨⟨found, inside, same⟩, within⟩ := hostedEach_mem aliases later
      exact ⟨⟨found, List.mem_append_right _ inside, same⟩, within⟩
end

/-! ## The result -/

/-- A path that a hook replaces is changed: no rewriter matches a model path. -/
theorem treat_replaced_ne {rewrite : ModelRewrite} {position : Position} {path rewritten : Path Unit}
    (replaced : rewrite.treat position path = .replaced rewritten) : rewritten ≠ path := by
  rintro rfl
  obtain ⟨known, segments, same⟩ := outcome_replaced replaced
  have named : rewritten.idents = "laplace_sdk" :: "rt" :: segments.map fun segment => segment.ident := by
    rw [same]
    rfl
  exact absurd (known (mem_effectivePath_idents named List.mem_cons_self)) (by decide)

/-- At a site, the output has another path, or the enclosing function begins with the marker of a primitive
that the pass records there. -/
def Reacts (items output : List Item) (index : ℕ) : Prop :=
  (moduleSites output)[index]?.map Site.occurrence ≠ (moduleSites items)[index]?.map Site.occurrence ∨
  ∃ site host primitive, (moduleHosts items)[index]? = some (site, some host) ∧
    primitive ∈ site.flags host.rewrite ∧ host.rewritten ∈ (moduleFunctions output).map Prod.snd ∧
    markerStmt primitive ∈ prependedStmts host.func host.rewritten

theorem Site.flags_eq_singleton {rewrite : ModelRewrite} {site : Site} {primitive : Unmodeled} :
    primitive ∈ site.flags rewrite ↔
      rewrite.treat site.occurrence.position site.occurrence.path = .flagged primitive := by
  rw [Site.flags]
  cases rewrite.treat site.occurrence.position site.occurrence.path <;> simp [Outcome.flags, eq_comm]

/-- The rewrite replaces or flags the path at the site. -/
def Site.Recognised (site : Site) (rewrite : ModelRewrite) : Prop :=
  rewrite.treat site.occurrence.position site.occurrence.path ≠ .untouched

instance (site : Site) (rewrite : ModelRewrite) : Decidable (site.Recognised rewrite) :=
  inferInstanceAs (Decidable (_ ≠ _))

/-- The pass reacts at a site exactly when the site lies in a free function under whose table the matchers
recognise the path. -/
theorem reacts_iff {items : List Item} {index : ℕ} {site : Site} {host : Option Host}
    (found : (moduleHosts items)[index]? = some (site, host)) :
    Reacts items (applyModelRewriteToItems items Aliases.empty {}) index ↔
      ∃ function, host = some function ∧ site.Recognised function.rewrite := by
  have input : (moduleSites items)[index]?.map Site.occurrence = some site.occurrence := by
    rw [moduleSites, ← hostedEach_sites, List.getElem?_map]
    change (((moduleHosts items)[index]?.map Prod.fst).map Site.occurrence) = _
    rw [found, Option.map_some, Option.map_some]
  have output : (moduleSites (applyModelRewriteToItems items Aliases.empty {}))[index]?.map Site.occurrence =
      some (passOccurrence (site, host)) := by
    rw [← List.getElem?_map, moduleSites_rewritten, List.getElem?_map, found, Option.map_some]
  constructor
  · rintro (changed | ⟨other, function, primitive, same, flagged, -⟩)
    · rw [input, output] at changed
      cases host with
      | none => exact absurd rfl changed
      | some function =>
        refine ⟨function, rfl, fun untouched => changed ?_⟩
        simp only [passOccurrence, passOutcome, untouched, Outcome.path]
    · obtain ⟨rfl, rfl⟩ := Prod.mk.inj (Option.some.inj (found.symm.trans same))
      refine ⟨function, rfl, fun untouched => ?_⟩
      rw [Site.flags_eq_singleton, untouched] at flagged
      exact absurd flagged (by simp)
  · rintro ⟨function, rfl, touched⟩
    cases treated : function.rewrite.treat site.occurrence.position site.occurrence.path with
    | untouched => exact absurd treated touched
    | replaced rewritten =>
      left
      simp only [input, output, passOccurrence, passOutcome, treated, Outcome.path]
      intro same
      exact treat_replaced_ne treated (congrArg Occurrence.path (Option.some.inj same))
    | flagged primitive =>
      right
      have flagged := Site.flags_eq_singleton.mpr treated
      obtain ⟨⟨hosting, member, base, func⟩, before, inside⟩ :=
        hostedEach_mem (show (Scope.module {} items).aliases = chainAliases [items] from rfl)
          (List.mem_of_getElem? found)
      refine ⟨site, function, primitive, found, flagged, ?_, ?_⟩
      · rw [moduleFunctions_rewritten]
        refine List.mem_map.mpr ⟨hosting, member, ?_⟩
        rw [Host.rewritten, base, func]
      · exact (markerStmt_prepended_iff function.base before function.func primitive).mpr ⟨site, inside, flagged⟩

/-- Annotating a module covers a path of one of its function bodies exactly when the body lies in a free
function of the module or of its inline modules, and the path is recognised under that function's table. -/
theorem module_covers_iff (ident : Ident) (items : List Item) (index : ℕ) (site : Site) (host : Option Host)
    (found : (moduleHosts items)[index]? = some (site, host)) :
    ∃ output, applyModelRewriteToAnnotatedMod ⟨ident, some items⟩ = .ok ⟨ident, some output⟩ ∧
      (((∃ own ∈ site.bodies, site.Recognised ⟨own, {}⟩) →
          Reacts items output index) ↔
        ((∃ own ∈ site.bodies, site.Recognised ⟨own, {}⟩) →
          ∃ function, host = some function ∧ site.Recognised function.rewrite)) :=
  ⟨_, rfl, imp_congr_right fun _ => reacts_iff found⟩

/-- `tokio::sync::Mutex::new(0)`. -/
def mutexCall : Stmt :=
  .expr (.exprCall
    (.exprPath none { segments := [⟨"tokio", .none⟩, ⟨"sync", .none⟩, ⟨"Mutex", .none⟩, ⟨"new", .none⟩] })
    [.other "0" []]) true

/-- `fn build() { tokio::sync::Mutex::new(0); }` -/
theorem module_covers_iff_freeFunction :
    ∃ output, applyModelRewriteToAnnotatedMod ⟨"m", some [.fn "build" [] [mutexCall]]⟩ = .ok ⟨"m", some output⟩ ∧
      Reacts [.fn "build" [] [mutexCall]] output 0 := by
  obtain ⟨output, rewritten, covers⟩ := module_covers_iff "m" [.fn "build" [] [mutexCall]] 0 _ _ rfl
  refine ⟨output, rewritten, covers.mpr (fun _ => ⟨_, rfl, ?_⟩) ⟨_, List.mem_cons_self, ?_⟩⟩
  · decide
  · decide

/-- `impl Pool { fn build() { tokio::sync::Mutex::new(0); } }` -/
def implModule : List Item := [.impl [.typePath none { segments := [⟨"Pool", .none⟩] }] [.fn "build" [] [mutexCall]]]

/-- The call in the method would be rewritten if the method were annotated; the module pass skips it. -/
theorem implModule_skipped :
    ∃ site output, (moduleSites implModule)[1]? = some site ∧
      (∃ own ∈ site.bodies, site.Recognised ⟨own, {}⟩) ∧
      applyModelRewriteToAnnotatedMod ⟨"m", some implModule⟩ = .ok ⟨"m", some output⟩ ∧
      ¬ Reacts implModule output 1 := by
  refine ⟨_, _, rfl, ⟨_, List.mem_cons_self, by decide⟩, rfl, ?_⟩
  rintro (changed | ⟨site, host, primitive, found, -⟩)
  · exact changed rfl
  · exact absurd (Prod.mk.inj (Option.some.inj found)).2 (by simp)

end Laplace.Soundness
