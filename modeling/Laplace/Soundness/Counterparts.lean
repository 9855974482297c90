import Laplace.Soundness.Matchers

/-! # Model paths and what they stand for

Every replacement is listed with the path it replaces, by their identifiers. Apart from the spawns, a model path
tells which path was replaced.
-/

namespace Laplace.Soundness

open Model

variable {α : Type}

/-- The identifiers of a model path. -/
def rtIdents (target : List Ident) : List Ident := "laplace_sdk" :: "rt" :: target

theorem rtPath_idents (segments : List (PathSegment α)) :
    (rtPath segments).idents = rtIdents (segments.map fun segment => segment.ident) := rfl

def stdLockNames : List (Ident × Ident) := [("Mutex", "ModelMutex"), ("RwLock", "ModelRwLock")]

def tokioLockNames : List (Ident × Ident) :=
  [("Mutex", "ModelAsyncMutex"), ("RwLock", "ModelAsyncRwLock"), ("Semaphore", "ModelAsyncSemaphore"),
    ("Notify", "ModelAsyncNotify")]

/-- The functions and types of the channel modules, which keep their names. -/
def channelNames : List (Ident × Ident) :=
  [("mpsc", "channel"), ("mpsc", "unbounded_channel"), ("oneshot", "channel"), ("watch", "channel"),
    ("broadcast", "channel"), ("mpsc", "Sender"), ("mpsc", "Receiver"), ("mpsc", "UnboundedSender"),
    ("mpsc", "UnboundedReceiver"), ("oneshot", "Sender"), ("oneshot", "Receiver"), ("watch", "Sender"),
    ("watch", "Receiver"), ("watch", "Ref"), ("broadcast", "Sender"), ("broadcast", "Receiver")]

def timeNames : List Ident := ["sleep", "timeout", "interval", "Sleep", "Timeout", "Interval"]

/-- The replaced paths, each with its model path below `rt`. -/
def counterparts : List (List Ident × List Ident) :=
  plainTargets.map (fun plain => (plain.1, [plain.2])) ++
    stdLockNames.map (fun lock => (["std", "sync", lock.1], [lock.2])) ++
    stdLockNames.map (fun lock => (["std", "sync", lock.1, "new"], [lock.2, "new"])) ++
    tokioLockNames.map (fun lock => (["tokio", "sync", lock.1], [lock.2])) ++
    tokioLockNames.flatMap (fun lock =>
      [(["tokio", "sync", lock.1, "new"], [lock.2, "new"]),
        (["tokio", "sync", lock.1, "const_new"], [lock.2, "const_new"])]) ++
    channelNames.map (fun channel => (["tokio", "sync", channel.1, channel.2], [channel.1, channel.2])) ++
    timeNames.map (fun name => (["tokio", "time", name], ["time", name]))

theorem modelTargetFor_mem {ty target : Ident} (found : modelTargetFor ty = some target) :
    (ty, target) ∈ stdLockNames := by
  unfold modelTargetFor at found
  split_ifs at found <;> cases found <;> subst_vars <;> decide

theorem tokioModelTargetFor_mem {ty target : Ident} (found : tokioModelTargetFor ty = some target) :
    (ty, target) ∈ tokioLockNames := by
  unfold tokioModelTargetFor at found
  split_ifs at found <;> cases found <;> subst_vars <;> decide

theorem tokioChannelFnTargetFor_mem {module name : Ident} {target : Ident × Ident}
    (found : tokioChannelFnTargetFor module name = some target) :
    target = (module, name) ∧ (module, name) ∈ channelNames := by
  unfold tokioChannelFnTargetFor at found
  split at found <;> cases found <;> decide

theorem tokioChannelTypeTargetFor_mem {module name : Ident} {target : Ident × Ident}
    (found : tokioChannelTypeTargetFor module name = some target) :
    target = (module, name) ∧ (module, name) ∈ channelNames := by
  unfold tokioChannelTypeTargetFor at found
  split at found <;> cases found <;> decide

theorem timeFnTargetFor_mem {name target : Ident} (found : timeFnTargetFor name = some target) :
    target = name ∧ name ∈ timeNames := by
  unfold timeFnTargetFor at found
  split_ifs at found <;> cases found <;> subst_vars <;> decide

theorem timeTypeTargetFor_mem {name target : Ident} (found : timeTypeTargetFor name = some target) :
    target = name ∧ name ∈ timeNames := by
  unfold timeTypeTargetFor at found
  split_ifs at found <;> cases found <;> subst_vars <;> decide

/-- Every replacement is on the list. -/
theorem rewrites_counterpart {path rewritten : Path α} (rewrites : Rewrites path rewritten) :
    ∃ target, rewritten.idents = rtIdents target ∧ (path.idents, target) ∈ counterparts := by
  simp only [counterparts, List.mem_append, List.mem_map, List.mem_flatMap]
  cases rewrites with
  | plain known matched =>
    rw [Path.isPlain, Bool.and_eq_true, beq_iff_eq] at matched
    refine ⟨_, rfl, .inl (.inl (.inl (.inl (.inl (.inl ⟨_, known, ?_⟩)))))⟩
    rw [matched.2]
    rfl
  | stdType matched =>
    obtain ⟨ty, target, named, found, rfl⟩ := rewriteTypePath_inv matched
    rw [named]
    exact ⟨_, rfl, .inl (.inl (.inl (.inl (.inl (.inr ⟨_, modelTargetFor_mem found, rfl⟩)))))⟩
  | stdConstructor matched =>
    obtain ⟨ty, method, target, named, found, member, rfl⟩ := rewriteConstructorPath_inv matched
    obtain rfl := List.mem_singleton.mp member
    rw [named]
    exact ⟨_, rfl, .inl (.inl (.inl (.inl (.inr ⟨_, modelTargetFor_mem found, rfl⟩))))⟩
  | tokioType matched =>
    obtain ⟨ty, target, named, found, rfl⟩ := rewriteTypePath_inv matched
    rw [named]
    exact ⟨_, rfl, .inl (.inl (.inl (.inr ⟨_, tokioModelTargetFor_mem found, rfl⟩)))⟩
  | tokioConstructor matched =>
    obtain ⟨ty, method, target, named, found, member, rfl⟩ := rewriteConstructorPath_inv matched
    rw [named]
    refine ⟨_, rfl, .inl (.inl (.inr ⟨_, tokioModelTargetFor_mem found, ?_⟩))⟩
    simp only [List.mem_cons, List.not_mem_nil, or_false] at member
    rcases member with rfl | rfl
    · exact List.mem_cons_self
    · exact List.mem_cons_of_mem _ List.mem_cons_self
  | channelConstructor matched =>
    obtain ⟨module, name, target, named, found, rfl⟩ := rewriteChannelPath_inv matched
    obtain ⟨rfl, member⟩ := tokioChannelFnTargetFor_mem found
    rw [named]
    exact ⟨_, rfl, .inl (.inr ⟨_, member, rfl⟩)⟩
  | channelType matched =>
    obtain ⟨module, name, target, named, found, rfl⟩ := rewriteChannelPath_inv matched
    obtain ⟨rfl, member⟩ := tokioChannelTypeTargetFor_mem found
    rw [named]
    exact ⟨_, rfl, .inl (.inr ⟨_, member, rfl⟩)⟩
  | timeFn matched =>
    obtain ⟨name, target, named, found, rfl⟩ := rewriteTokioTimeFnPath_inv matched
    obtain ⟨rfl, member⟩ := timeFnTargetFor_mem found
    rw [named]
    exact ⟨_, rfl, .inr ⟨_, member, rfl⟩⟩
  | timeType matched =>
    obtain ⟨name, target, named, found, rfl⟩ := rewriteTypePath_inv matched
    obtain ⟨rfl, member⟩ := timeTypeTargetFor_mem found
    rw [named]
    exact ⟨_, rfl, .inr ⟨_, member, rfl⟩⟩

/-- The model path tells what was replaced, if it is no spawn. -/
theorem counterparts_injective : ∀ pair ∈ counterparts, ∀ other ∈ counterparts, pair.2 = other.2 →
    pair.1 = other.1 ∨ pair.2 = ["spawn"] ∨ pair.2 = ["spawn_task"] := by
  decide

theorem ofClass_ne_replaced (primitive : Option Unmodeled) (rewritten : Path α) :
    (Outcome.ofClass primitive : Outcome α) ≠ .replaced rewritten := by
  cases primitive <;> simp [Outcome.ofClass]

/-- Without the option for tasks, a spawn below `tokio` is replaced by nothing. -/
theorem tokioSpawn_not_replaced {position : Position} {path : Path α}
    (spawn : path.idents = ["tokio", "spawn"] ∨ path.idents = ["tokio", "task", "spawn"]) (rewritten : Path α) :
    outcome {} position path ≠ .replaced rewritten := by
  rcases spawn with named | named <;> cases position <;>
    simp [outcome, callOutcome, typeOutcome, macroOutcome, isSupportedSpawnPath, isTokioSelectMacroPath, Path.isPlain,
      named, rewriteStdSyncConstructorPath, rewriteTokioSyncConstructorPath, rewriteConstructorPath_eq,
      rewriteStdSyncTypePath, rewriteTokioSyncTypePath, rewriteTokioTimeTypePath, rewriteTypePath_eq,
      rewriteTokioSyncChannelConstructorPath, rewriteTokioSyncChannelTypePath, rewriteChannelPath_eq,
      rewriteTokioTimeFnPath_eq, Outcome.orElse, ofClass_ne_replaced]

/-- Paths that are replaced by the same, one of them below `tokio`, are the same. -/
theorem idents_eq_of_replaced {position : Position} {path other rewritten : Path α}
    (rooted : other.idents.head? = some "tokio") (replaced : outcome {} position path = .replaced rewritten)
    (replaced' : outcome {} position other = .replaced rewritten) : path.idents = other.idents := by
  obtain ⟨target, isTarget, listed⟩ := rewrites_counterpart (outcome_rewrites replaced)
  obtain ⟨target', isTarget', listed'⟩ := rewrites_counterpart (outcome_rewrites replaced')
  obtain rfl : target = target' := (List.cons.inj (List.cons.inj (isTarget.symm.trans isTarget')).2).2
  rcases counterparts_injective _ listed _ listed' rfl with same | spawn | task
  · exact same
  · -- a supported spawn is not below `tokio`
    have outside : ∀ pair ∈ counterparts, pair.2 = ["spawn"] → pair.1.head? ≠ some "tokio" := by decide
    exact absurd rooted (outside _ listed' spawn)
  · have isSpawn : ∀ pair ∈ counterparts, pair.2 = ["spawn_task"] →
        pair.1 = ["tokio", "spawn"] ∨ pair.1 = ["tokio", "task", "spawn"] := by decide
    exact absurd replaced (tokioSpawn_not_replaced (isSpawn _ listed task) _)

end Laplace.Soundness
