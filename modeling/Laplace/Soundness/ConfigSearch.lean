import Laplace.Model.ProjectConfig
import Mathlib.Logic.Basic

/-! # Which `laplace.toml` the search finds

The search documents four places: the manifest directory, its parent, its grandparent and the current directory. It
climbs twice for its first step up and three times for its second, so the parent is never looked at, and the
great-grandparent is.
-/

namespace Laplace.Soundness.Config

open Model.Config

/-- The directory so many levels above, when there is one. -/
def ancestor (base : Path) : ℕ → Option Path
  | 0 => some base
  | level + 1 => (ancestor base level).bind Path.parent

/-- The files in the order in which the search is documented to look for them. -/
def documentedList (host : Host) : List Path :=
  let climbed := host.manifestDir.elim [] fun base => [ancestor base 0, ancestor base 1, ancestor base 2]
  climbed.filterMap (·.map (·.join "laplace.toml")) ++ [⟨false, ["laplace.toml"]⟩]

/-- The first of them that exists. -/
def documented (host : Host) : Option Path := (documentedList host).find? host.pathExists

/-- The depth that the licence gives, else the file of the documented search, else the built-in one. -/
def documentedDepth (host : Host) (parsers : Parsers) : UInt64 :=
  ((loadAxiomMaxDepth host parsers).or
    (((documented host).bind (readProjectConfig host parsers)).bind (·.maxDepth))).getD 500

/-- The search finds the documented file, nothing exactly when there is none, and the session has the depth that
follows from it. -/
structure SearchesAsDocumented (host : Host) (parsers : Parsers) : Prop where
  file : (findLaplaceToml host).map host.resolve = (documented host).map host.resolve
  missing : findLaplaceToml host = none ↔ ∀ candidate ∈ documentedList host, host.pathExists candidate = false
  depth : (ProbeSessionConfig.default host parsers).maxDepth = documentedDepth host parsers

/-- The directory at this level has a `laplace.toml`. -/
def Holds (host : Host) (base : Path) (level : ℕ) : Prop :=
  ∃ dir, ancestor base level = some dir ∧ host.pathExists (dir.join "laplace.toml") = true

/-- The directory at this level is the current one. -/
def IsCurrent (host : Host) (base : Path) (level : ℕ) : Prop :=
  ∃ dir, ancestor base level = some dir ∧ host.resolve dir = host.currentDir

/-- The manifest directory has the file; or only its parent does, and is the current directory; or the parent does
not, and the great-grandparent's file is not in the way. -/
def Reached (host : Host) (base : Path) : Prop :=
  Holds host base 0 ∨
    (Holds host base 1 ∧ ¬ Holds host base 2 ∧ ¬ Holds host base 3 ∧ IsCurrent host base 1) ∨
    (¬ Holds host base 1 ∧ (Holds host base 3 → Holds host base 2 ∨ IsCurrent host base 3))

/-! ## Files at a level -/

variable {host : Host} {base : Path}

/-- The file at a level, when it exists. -/
def found (host : Host) (base : Path) (level : ℕ) : Option (List String) :=
  (existing host ((ancestor base level).map (·.join "laplace.toml"))).map host.resolve

/-- The file in the current directory, when it exists. -/
def current (host : Host) : Option (List String) :=
  (existing host (some ⟨false, ["laplace.toml"]⟩)).map host.resolve

theorem resolve_join (dir : Path) (name : String) : host.resolve (dir.join name) = host.resolve dir ++ [name] := by
  cases absolute : dir.absolute <;> simp [Host.resolve, Path.join, absolute]

theorem found_eq_some_iff {level : ℕ} {file : List String} : found host base level = some file ↔
    ∃ dir, ancestor base level = some dir ∧ host.present file = true ∧ host.resolve dir ++ ["laplace.toml"] = file := by
  simp only [found, existing, Option.map_eq_some_iff, Option.filter_eq_some_iff, Host.pathExists]
  constructor
  · rintro ⟨_, ⟨⟨dir, here, rfl⟩, present⟩, rfl⟩
    exact ⟨dir, here, present, (resolve_join dir _).symm⟩
  · rintro ⟨dir, here, present, rfl⟩
    rw [← resolve_join] at present ⊢
    exact ⟨_, ⟨⟨dir, here, rfl⟩, present⟩, rfl⟩

theorem found_eq_none_iff {level : ℕ} : found host base level = none ↔ ¬ Holds host base level := by
  rw [Option.eq_none_iff_forall_ne_some]
  constructor
  · rintro missing ⟨dir, above, present⟩
    rw [Host.pathExists, resolve_join] at present
    exact missing _ (found_eq_some_iff.mpr ⟨dir, above, present, rfl⟩)
  · intro absent file here
    obtain ⟨dir, above, present, rfl⟩ := found_eq_some_iff.mp here
    apply absent
    refine ⟨dir, above, ?_⟩
    rwa [Host.pathExists, resolve_join]

theorem current_eq : current host =
    if host.present (host.currentDir ++ ["laplace.toml"]) then some (host.currentDir ++ ["laplace.toml"])
    else none := by
  have resolved : host.resolve ⟨false, ["laplace.toml"]⟩ = host.currentDir ++ ["laplace.toml"] := rfl
  rw [current, existing, Option.filter_some, Host.pathExists, resolved]
  split
  · rw [Option.map_some, resolved]
  · rfl

/-- A file found at a level is the current directory's exactly when the directory is the current one. -/
theorem found_eq_current_iff {level : ℕ} (holds : Holds host base level) :
    found host base level = current host ↔ IsCurrent host base level := by
  obtain ⟨dir, above, present⟩ := holds
  rw [Host.pathExists, resolve_join] at present
  rw [found_eq_some_iff.mpr ⟨dir, above, present, rfl⟩, current_eq]
  constructor
  · intro same
    obtain ⟨_, same⟩ := Option.ite_none_right_eq_some.mp same.symm
    exact ⟨dir, above, (List.append_inj_left' (Option.some.inj same) rfl).symm⟩
  · rintro ⟨dir', above', same⟩
    obtain rfl := Option.some.inj (above.symm.trans above')
    rw [← same, if_pos present]

theorem ancestor_components {level : ℕ} {dir : Path} (above : ancestor base level = some dir) :
    dir.absolute = base.absolute ∧ dir.components.length + level = base.components.length := by
  induction level generalizing dir with
  | zero =>
    obtain rfl := Option.some.inj above
    exact ⟨rfl, rfl⟩
  | succ level ih =>
    obtain ⟨lower, below, parent⟩ := Option.bind_eq_some_iff.mp above
    obtain ⟨absolute, length⟩ := ih below
    rw [Path.parent] at parent
    split at parent
    · cases parent
    · rename_i some
      obtain rfl := Option.some.inj parent
      have positive := List.length_pos_iff.mpr some
      refine ⟨absolute, ?_⟩
      rw [List.length_dropLast]
      omega

/-- Files at different levels are different. -/
theorem found_ne {low high : ℕ} (higher : low < high) :
    found host base low = none ∨ found host base low ≠ found host base high := by
  cases below : found host base low with
  | none => exact .inl rfl
  | some file =>
    right
    intro same
    obtain ⟨dir, above, _, named⟩ := found_eq_some_iff.mp below
    obtain ⟨dir', above', _, named'⟩ := found_eq_some_iff.mp same.symm
    obtain ⟨absolute, length⟩ := ancestor_components above
    obtain ⟨absolute', length'⟩ := ancestor_components above'
    have resolved := congrArg List.length (List.append_inj_left' (named.trans named'.symm) rfl)
    simp only [Host.resolve, absolute, absolute'] at resolved
    split at resolved
    · omega
    · simp only [List.length_append] at resolved
      omega

/-! ## The two searches -/

/-- The search looks at the manifest directory and two and three levels above it. -/
theorem find_eq (some : host.manifestDir = some base) : (findLaplaceToml host).map host.resolve =
    (found host base 0).or ((found host base 2).or ((found host base 3).or (current host))) := by
  simp only [findLaplaceToml, some, Option.bind_some, Option.orElse_eq_orElse, Option.orElse_eq_or, Option.map_or,
    Option.or_assoc]
  rfl

theorem find?_cons_eq (candidate : Path) (rest : List Path) :
    (candidate :: rest).find? host.pathExists = (existing host (some candidate)).or (rest.find? host.pathExists) := by
  cases present : host.pathExists candidate <;> simp [existing, Option.filter_some, present]

theorem find?_filterMap_eq (dirs : List (Option Path)) (rest : List Path) :
    (dirs.filterMap (·.map (·.join "laplace.toml")) ++ rest).find? host.pathExists =
      dirs.foldr (fun dir later => (existing host (dir.map (·.join "laplace.toml"))).or later)
        (rest.find? host.pathExists) := by
  induction dirs with
  | nil => rfl
  | cons dir dirs ih =>
    rw [List.foldr_cons, ← ih]
    cases dir with
    | none => rfl
    | some dir => exact find?_cons_eq _ _

/-- The documented search looks at the manifest directory and one and two levels above it. -/
theorem documented_eq (some : host.manifestDir = some base) : (documented host).map host.resolve =
    (found host base 0).or ((found host base 1).or ((found host base 2).or (current host))) := by
  rw [documented, documentedList, some, Option.elim_some, find?_filterMap_eq, find?_cons_eq]
  simp only [List.foldr_cons, List.foldr_nil, List.find?_nil, Option.or_none, Option.map_or]
  rfl

/-- Without a manifest directory both look in the current directory only. -/
theorem find_eq_documented_of_unset (unset : host.manifestDir = none) : findLaplaceToml host = documented host := by
  rw [findLaplaceToml, documented, documentedList, unset, Option.elim_none, List.filterMap_nil, List.nil_append,
    find?_cons_eq, List.find?_nil, Option.or_none]
  rfl

/-- The search goes up to `second` and `third`, the documented one to `first` and `second`. -/
theorem or_agree_iff {File : Type} {first second third rest : Option File}
    (second_ne : first = none ∨ first ≠ second) (third_ne : first = none ∨ first ≠ third) :
    second.or (third.or rest) = first.or (second.or rest) ↔
      (first ≠ none ∧ second = none ∧ third = none ∧ first = rest) ∨
        (first = none ∧ (third ≠ none → second ≠ none ∨ third = rest)) := by
  cases first with
  | none =>
    cases second <;> cases third <;> simp
  | some file =>
    cases second with
    | some other =>
      have differs : file ≠ other := fun same => second_ne.elim (by simp) (fun ne => ne (congrArg some same))
      simp [differs.symm]
    | none =>
      cases third with
      | some other =>
        have differs : file ≠ other := fun same => third_ne.elim (by simp) (fun ne => ne (congrArg some same))
        simp [differs.symm]
      | none => simp [eq_comm]

/-- The two searches find the same file exactly when the condition holds. -/
theorem same_file_iff (some : host.manifestDir = some base) :
    (findLaplaceToml host).map host.resolve = (documented host).map host.resolve ↔ Reached host base := by
  have holds (level : ℕ) : found host base level ≠ none ↔ Holds host base level := by
    rw [ne_eq, found_eq_none_iff, not_not]
  rw [find_eq some, documented_eq some]
  by_cases own : Holds host base 0
  · obtain ⟨file, here⟩ := Option.ne_none_iff_exists'.mp ((holds 0).mpr own)
    rw [here]
    exact iff_of_true rfl (.inl own)
  · rw [found_eq_none_iff.mpr own, Option.none_or, Option.none_or,
      or_agree_iff (found_ne (by decide)) (found_ne (by decide)), Reached, or_iff_right own]
    simp only [holds, found_eq_none_iff]
    apply or_congr
    · constructor
      · rintro ⟨parent, grandparent, above, same⟩
        exact ⟨parent, grandparent, above, (found_eq_current_iff parent).mp same⟩
      · rintro ⟨parent, grandparent, above, here⟩
        exact ⟨parent, grandparent, above, (found_eq_current_iff parent).mpr here⟩
    · apply and_congr_right'
      apply forall_congr'
      intro above
      rw [found_eq_current_iff above]

theorem documented_eq_none_iff :
    documented host = none ↔ ∀ candidate ∈ documentedList host, host.pathExists candidate = false := by
  simp [documented, List.find?_eq_none]

/-- What is read from a path depends on the file alone. -/
theorem readProjectConfig_congr (parsers : Parsers) {path path' : Path}
    (same : host.resolve path = host.resolve path') :
    readProjectConfig host parsers path = readProjectConfig host parsers path' := by
  rw [readProjectConfig, readProjectConfig, Host.readToString, Host.readToString, same]

/-- Once the file is the documented one, so is everything else. -/
theorem searchesAsDocumented_of_file {parsers : Parsers}
    (file : (findLaplaceToml host).map host.resolve = (documented host).map host.resolve) :
    SearchesAsDocumented host parsers where
  file := file
  missing := by
    rw [← documented_eq_none_iff, ← Option.map_eq_none_iff (f := host.resolve), file, Option.map_eq_none_iff]
  depth := by
    rw [ProbeSessionConfig.default, documentedDepth, loadTomlMaxDepth, loadProjectConfig]
    cases searched : findLaplaceToml host with
    | none =>
      rw [searched, Option.map_none, eq_comm, Option.map_eq_none_iff] at file
      rw [file]
    | some path =>
      rw [searched, Option.map_some, eq_comm, Option.map_eq_some_iff] at file
      obtain ⟨path', found, same⟩ := file
      rw [found, Option.bind_some, Option.bind_some, readProjectConfig_congr parsers same]

/-- The search is the documented one exactly when `CARGO_MANIFEST_DIR` is unset or the condition holds. -/
theorem searchesAsDocumented_iff (host : Host) (parsers : Parsers) :
    SearchesAsDocumented host parsers ↔ ∀ base, host.manifestDir = some base → Reached host base := by
  constructor
  · intro searches base some
    exact (same_file_iff some).mp searches.file
  · intro reached
    apply searchesAsDocumented_of_file
    cases some : host.manifestDir with
    | none => rw [find_eq_documented_of_unset some]
    | some base => exact (same_file_iff some).mpr (reached base some)

/-- A crate of a workspace, whose root has the only `laplace.toml`. -/
def workspaceMember : Host where
  manifestDir := some ⟨true, ["w", "a"]⟩
  currentDir := ["w", "a"]
  homeDir := none
  present := (· == ["w", "laplace.toml"])
  readFile := fun _ => none

/-- The search of a workspace member does not find the file of the workspace. -/
theorem workspace_not_found : ¬ ∀ host parsers, SearchesAsDocumented host parsers := by
  intro always
  have file := (always workspaceMember ⟨fun _ => none, fun _ => none, fun _ => none, fun _ => none⟩).file
  exact absurd file (by decide)

end Laplace.Soundness.Config
