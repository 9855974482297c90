import Laplace.Soundness.AliasTable

/-! # Aliased paths against qualified paths

A path whose first segment is an import should be treated as the path the import stands for. The table
records what the source binds except for `self as name`, where the recorded path ends in a spurious
`self`. No matcher looks for that identifier, so such a path is treated like the one without it exactly
where no matcher recognises the path by its full sequence of identifiers.
-/

namespace Laplace.Soundness

open Model

variable {α : Type}

/-- `p::rest` with arguments on the last segment of `p`. -/
def qualified (path : List Ident) (arguments : PathArguments α) (rest : List (PathSegment α)) : Path α where
  segments := path.dropLast.map .plain ++ (path.getLast?.map fun ident => ⟨ident, arguments⟩).toList ++ rest

/-- A leaf that binds another name leaves the binding alone. -/
theorem Leaf.insert_other {table : Aliases} {leaf : Leaf} {binding : Ident}
    (other : leaf.binding ≠ some binding) : leaf.insert table binding = table binding := by
  rw [Leaf.insert]
  cases bound : leaf.binding with
  | none => rfl
  | some name =>
    have apart : binding ≠ name := fun same => other (bound.trans (congrArg some same.symm))
    simp only [insertTokioAlias]
    split
    · rw [Function.update_of_ne apart]
    · rfl

/-! ## The spurious `self` -/

/-- What a path is classified by, once it is neither a time primitive nor a spawn. -/
def classByName (idents : List Ident) : Option Unmodeled :=
  if "Condvar" ∈ idents then some .condvar
  else if "mpsc" ∈ idents then some .channel
  else if idents.any fun ident => ident == "atomic" || isKnownAtomicType ident then some .atomic
  else none

theorem classifyTokioTimeUnmodeled_cases (path : Path α) :
    classifyTokioTimeUnmodeled path = none ∨ classifyTokioTimeUnmodeled path = some .tokioTime := by
  rw [classifyTokioTimeUnmodeled_eq]
  split
  · split
    · exact .inr rfl
    · exact .inl rfl
  · exact .inl rfl

/-- Below `tokio`, the classification reads time primitives and spawns in full and the rest by name. -/
theorem classifyUnmodeled_of_tokio {path : Path α} (rooted : path.idents.head? = some "tokio") :
    classifyUnmodeled path =
      if classifyTokioTimeUnmodeled path = some .tokioTime then some .tokioTime
      else if (isTokioSpawnPath path || isUnmodeledTokioSpawnPath path) = true then some .tokioSpawn
      else classByName path.idents := by
  have arcSwap : classifyArcSwapUnmodeled path = none := by
    rw [classifyArcSwapUnmodeled_eq]
    cases named : path.idents with
    | nil => rfl
    | cons first rest =>
      rw [named] at rooted
      obtain rfl := Option.some.inj rooted
      rfl
  rcases classifyTokioTimeUnmodeled_cases path with none | some
  · simp only [classifyUnmodeled, none, arcSwap, classByName, List.contains_iff_mem, reduceCtorEq,
      ↓reduceIte]
  · simp only [classifyUnmodeled, some, ↓reduceIte]

/-! ### Inserting `self` into a qualified path -/

theorem qualified_idents (lead : List Ident) (arguments : PathArguments α) (rest : List (PathSegment α)) :
    (qualified lead arguments rest).idents = lead ++ rest.map fun segment => segment.ident := by
  have expanded := effectivePath_idents (fun _ => some lead) (⟨false, ⟨"", arguments⟩ :: rest⟩ : Path α)
  exact expanded

theorem effectivePath_of_alias {aliases : Aliases} {binding : Ident} {canonical : List Ident}
    (bound : aliases binding = some canonical) (leadingColon : Bool) (arguments : PathArguments α)
    (rest : List (PathSegment α)) :
    effectivePath aliases ⟨leadingColon, ⟨binding, arguments⟩ :: rest⟩ = qualified canonical arguments rest := by
  simp only [effectivePath, canonicalize, bound, Option.map_some, Option.getD_some]
  rfl

theorem effectivePath_empty (path : Path α) : effectivePath Aliases.empty path = path := by
  obtain ⟨leadingColon, segments⟩ := path
  cases segments <;> rfl

/-- With three segments or more, the first two are plain. -/
theorem plainBelow_qualified (first second third : Ident) (lead : List Ident) (arguments : PathArguments α)
    (rest : List (PathSegment α)) :
    (qualified (first :: second :: third :: lead) arguments rest).plainBelow 2 = true := by
  simp only [qualified, List.dropLast_cons_cons, List.map_cons, List.cons_append, Path.plainBelow,
    List.take_succ_cons, List.take_zero, List.all_cons, List.all_nil, Bool.and_true]
  rfl

/-- The inserted `self` hides a time primitive exactly when its name comes after the alias. -/
theorem classifyTokioTimeUnmodeled_self {lead : List Ident} (rooted : lead.head? = some "tokio")
    (arguments : PathArguments α) (rest : List (PathSegment α)) :
    classifyTokioTimeUnmodeled (qualified (lead ++ ["self"]) arguments rest) =
      if 3 ≤ lead.length then classifyTokioTimeUnmodeled (qualified lead arguments rest) else none := by
  rw [classifyTokioTimeUnmodeled_eq, classifyTokioTimeUnmodeled_eq, qualified_idents, qualified_idents]
  rcases lead with _ | ⟨first, _ | ⟨second, _ | ⟨third, lead⟩⟩⟩
  · exact absurd rooted (by simp)
  · cases rest <;> simp
  · simp
  · have three : 3 ≤ (first :: second :: third :: lead).length := by
      simp only [List.length_cons]
      omega
    rw [if_pos three]
    simp only [List.cons_append, plainBelow_qualified]

theorem classByName_self (lead rest : List Ident) :
    classByName ((lead ++ ["self"]) ++ rest) = classByName (lead ++ rest) := by
  simp [classByName, isKnownAtomicType, List.any_append]

/-- The path is treated the same with `self` after its first `length` segments: no rewriter matches it, and
it is a time primitive named within those segments or neither a time primitive nor a spawn. -/
def SelfInsensitive (options : ModelRewriteOptions) (position : Position) (length : ℕ) (path : Path α) : Prop :=
  (∀ rewritten, outcome options position path ≠ .replaced rewritten) ∧
    (position = .macroName ∨
      (classifyTokioTimeUnmodeled path ≠ none ∧ 3 ≤ length) ∨
      (classifyTokioTimeUnmodeled path = none ∧
        (isTokioSpawnPath path || isUnmodeledTokioSpawnPath path) = false))

theorem classByName_ne_tokioTime (idents : List Ident) : classByName idents ≠ some .tokioTime := by
  unfold classByName
  split_ifs <;> simp

theorem classByName_ne_tokioSpawn (idents : List Ident) : classByName idents ≠ some .tokioSpawn := by
  unfold classByName
  split_ifs <;> simp

theorem classify_self_iff {lead : List Ident} (rooted : lead.head? = some "tokio") (arguments : PathArguments α)
    (rest : List (PathSegment α)) :
    classifyUnmodeled (qualified (lead ++ ["self"]) arguments rest) =
        classifyUnmodeled (qualified lead arguments rest) ↔
      (classifyTokioTimeUnmodeled (qualified lead arguments rest) ≠ none ∧ 3 ≤ lead.length) ∨
      (classifyTokioTimeUnmodeled (qualified lead arguments rest) = none ∧
        (isTokioSpawnPath (qualified lead arguments rest) ||
          isUnmodeledTokioSpawnPath (qualified lead arguments rest)) = false) := by
  have mentions : "self" ∈ (qualified (lead ++ ["self"]) arguments rest).idents := by
    rw [qualified_idents]
    simp
  have other (idents : List Ident) (absent : "self" ∉ idents) :
      (qualified (lead ++ ["self"]) arguments rest).isPlain idents = false := by
    rw [Path.isPlain, Bool.and_eq_false_iff]
    exact .inr (beq_eq_false_iff_ne.mpr fun same => absent (same ▸ mentions))
  have noSpawn : (isTokioSpawnPath (qualified (lead ++ ["self"]) arguments rest) ||
      isUnmodeledTokioSpawnPath (qualified (lead ++ ["self"]) arguments rest)) = false := by
    simp only [isTokioSpawnPath, isUnmodeledTokioSpawnPath, other ["tokio", "spawn"] (by decide),
      other ["tokio", "task", "spawn"] (by decide), other ["tokio", "task", "spawn_blocking"] (by decide),
      other ["tokio", "task", "spawn_local"] (by decide), Bool.or_self]
  have below (path : List Ident) (head : path.head? = some "tokio") :
      (qualified path arguments rest).idents.head? = some "tokio" := by
    rw [qualified_idents]
    cases path with
    | nil => exact absurd head (by simp)
    | cons first more => exact head
  have extended : (lead ++ ["self"]).head? = some "tokio" := by
    cases lead with
    | nil => exact absurd rooted (by simp)
    | cons first more => exact rooted
  rw [classifyUnmodeled_of_tokio (below _ rooted), classifyUnmodeled_of_tokio (below _ extended), noSpawn,
    classifyTokioTimeUnmodeled_self rooted, qualified_idents, qualified_idents, classByName_self]
  have notTime := classByName_ne_tokioTime (lead ++ rest.map fun segment => segment.ident)
  have notSpawn := classByName_ne_tokioSpawn (lead ++ rest.map fun segment => segment.ident)
  rcases classifyTokioTimeUnmodeled_cases (qualified lead arguments rest) with time | time
  · cases spawn : isTokioSpawnPath (qualified lead arguments rest) ||
      isUnmodeledTokioSpawnPath (qualified lead arguments rest) <;> simp [time, notSpawn]
  · by_cases long : 3 ≤ lead.length <;> simp [time, long, notTime]

theorem Outcome.ofClass_injective : Function.Injective (Outcome.ofClass : Option Unmodeled → Outcome α) := by
  intro first second same
  cases first <;> cases second <;> simp_all [Outcome.ofClass]

theorem outcome_self_iff {lead : List Ident} (rooted : lead.head? = some "tokio") (options : ModelRewriteOptions)
    (position : Position) (arguments : PathArguments α) (rest : List (PathSegment α)) :
    outcome options position (qualified (lead ++ ["self"]) arguments rest) =
        outcome options position (qualified lead arguments rest) ↔
      SelfInsensitive options position lead.length (qualified lead arguments rest) := by
  have mentions : "self" ∈ (qualified (lead ++ ["self"]) arguments rest).idents := by
    rw [qualified_idents]
    simp
  rw [outcome_of_mention mentions (by decide)]
  by_cases kept : ∀ rewritten, outcome options position (qualified lead arguments rest) ≠ .replaced rewritten
  · rw [outcome_of_not_replaced kept, SelfInsensitive, and_iff_right kept]
    cases position with
    | macroName => exact iff_of_true rfl (.inl rfl)
    | call | type =>
      simp only [reduceCtorEq, false_or]
      exact Outcome.ofClass_injective.eq_iff.trans (classify_self_iff rooted arguments rest)
  · refine iff_of_false (fun same => ?_) (fun insensitive => kept insensitive.1)
    -- a classification never equals a replacement
    refine kept fun rewritten replaced => ?_
    rw [replaced] at same
    cases position with
    | macroName => exact absurd same (by simp [classOutcome])
    | call | type =>
      simp only [classOutcome] at same
      cases found : classifyUnmodeled (qualified (lead ++ ["self"]) arguments rest) <;>
        simp [found, Outcome.ofClass] at same

end Laplace.Soundness
