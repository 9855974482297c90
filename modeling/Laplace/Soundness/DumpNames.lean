import Laplace.Model.EventDump
import Mathlib.Data.List.Forall2
import Mathlib.Data.List.Induction
import Mathlib.Data.List.Nodup

/-! # Event dumps of different targets

On a target name every colon is one of a pair, so the replacement turns each colon into an underscore and leaves the
rest. Two targets share a file exactly when they differ only in places where one has a colon and the other an
underscore, and then the later dump overwrites the earlier.
-/

namespace Laplace.Soundness.Dump

open Model.Dump

/-- What the names need of an identifier. -/
structure IsSegment (segment : Name) : Prop where
  nonempty : segment ≠ []
  colon : ':' ∉ segment
  slash : '/' ∉ segment

instance (segment : Name) : Decidable (IsSegment segment) :=
  decidable_of_iff (segment ≠ [] ∧ ':' ∉ segment ∧ '/' ∉ segment)
    ⟨fun ⟨nonempty, colon, slash⟩ => ⟨nonempty, colon, slash⟩, fun ⟨nonempty, colon, slash⟩ => ⟨nonempty, colon, slash⟩⟩

/-- A path of identifiers. -/
def IsTarget (target : Name) : Prop :=
  ∃ segments, segments ≠ [] ∧ (∀ segment ∈ segments, IsSegment segment) ∧ target = targetName segments

/-- Of one length, and different only where one has a colon and the other an underscore. -/
def Confusable (target other : Name) : Prop :=
  List.Forall₂ (fun c d => c = d ∨ (c = ':' ∧ d = '_') ∨ (c = '_' ∧ d = ':')) target other

variable {Event : Type}

/-- Each call's envelope is the contents of one file, and every file has such contents. -/
structure Filed (files : Files Event) (calls : List (Call Event)) : Prop where
  own : ∀ call ∈ calls, ∃! name, files name = some (.envelope call.envelope)
  only : ∀ name contents, files name = some contents → ∃ call ∈ calls, contents = .envelope call.envelope

/-- The dumps survive each other, in whatever order they happen. -/
def Kept (dir : Option Name) (calls : List (Call Event)) : Prop :=
  ∀ order, order.Perm calls → Filed (dumpAll dir order) calls

/-! ## File names -/

/-- What the replacement does to a colon of a target. -/
def underscored (char : Char) : Char := if char = ':' then '_' else char

theorem map_underscored {segment : Name} (colon : ':' ∉ segment) : segment.map underscored = segment := by
  have same : segment.map underscored = segment.map id := by
    apply List.map_congr_left
    intro char member
    apply if_neg
    rintro rfl
    exact colon member
  rw [same, List.map_id]

theorem replace_cons {char : Char} (other : char ≠ ':') (rest : Name) :
    replace (char :: rest) = char :: replace rest := by
  rw [replace]
  intro _ same
  exact absurd same other

/-- A segment is left as it is. -/
theorem replace_append {segment : Name} (colon : ':' ∉ segment) (rest : Name) :
    replace (segment ++ rest) = segment ++ replace rest := by
  induction segment with
  | nil => rfl
  | cons char segment ih =>
    rw [List.mem_cons, not_or] at colon
    have other : char ≠ ':' := fun same => colon.1 same.symm
    rw [List.cons_append, replace_cons other, ih colon.2, List.cons_append]

/-- On a target the replacement goes by single characters. -/
theorem replace_targetName {segments : List Name} (form : ∀ segment ∈ segments, ':' ∉ segment) :
    replace (targetName segments) = (targetName segments).map underscored := by
  induction segments with
  | nil => rfl
  | cons segment rest ih =>
    have colon := form segment List.mem_cons_self
    cases rest with
    | nil =>
      have alone := replace_append colon []
      rw [List.append_nil, replace, List.append_nil] at alone
      rw [targetName, alone, map_underscored colon]
    | cons next rest =>
      have later := ih (fun other member => form other (List.mem_cons_of_mem _ member))
      rw [targetName, replace_append colon, replace, later, List.map_append, map_underscored colon]
      · rfl
      · simp

theorem underscored_eq_iff (c d : Char) :
    underscored c = underscored d ↔ c = d ∨ (c = ':' ∧ d = '_') ∨ (c = '_' ∧ d = ':') := by
  unfold underscored
  by_cases left : c = ':' <;> by_cases right : d = ':' <;> simp [left, right, eq_comm]

/-- Two targets have one file name exactly when they are confusable. -/
theorem filename_eq_iff {target other : Name} (form : IsTarget target) (form' : IsTarget other) :
    filename target = filename other ↔ Confusable target other := by
  obtain ⟨segments, _, identifiers, rfl⟩ := form
  obtain ⟨segments', _, identifiers', rfl⟩ := form'
  rw [filename, filename, List.append_left_inj,
    replace_targetName fun segment member => (identifiers segment member).colon,
    replace_targetName fun segment member => (identifiers' segment member).colon,
    ← List.forall₂_eq_eq_eq, List.forall₂_map_left_iff, List.forall₂_map_right_iff]
  simp only [underscored_eq_iff]
  rfl

/-! ## What is in the files -/

variable {dir : Option Name}

theorem Files.write_self (files : Files Event) (name : Name) (contents : Contents Event) :
    files.write name contents name = some contents := if_pos rfl

theorem Files.write_other {files : Files Event} {name other : Name} (ne : other ≠ name) (contents : Contents Event) :
    files.write name contents other = files other := if_neg ne

/-- What a call can write. -/
inductive Writes (dir : Option Name) (call : Call Event) : Contents Event → Prop
  | envelope (set : dir ≠ none) (done : call.io = .done) : Writes dir call (.envelope call.envelope)
  | fragment (torn : call.io = .torn) : Writes dir call .fragment

/-- A call leaves the files as they are, or writes the file of its target. -/
theorem dump_cases (dir : Option Name) (files : Files Event) (call : Call Event) :
    dumpEventsWithMode dir files call = files ∨
      ∃ contents, Writes dir call contents ∧
        dumpEventsWithMode dir files call = files.write (filename call.target) contents := by
  unfold dumpEventsWithMode
  cases dir with
  | none => exact .inl rfl
  | some dir =>
    cases io : call.io with
    | done => exact .inr ⟨_, .envelope (Option.some_ne_none _) io, rfl⟩
    | noDirectory => exact .inl rfl
    | refused => exact .inl rfl
    | torn => exact .inr ⟨_, .fragment io, rfl⟩

theorem dump_other (files : Files Event) (call : Call Event) {name : Name} (ne : name ≠ filename call.target) :
    dumpEventsWithMode dir files call name = files name := by
  rcases dump_cases dir files call with same | ⟨contents, _, same⟩
  · rw [same]
  · rw [same, Files.write_other ne]

/-- A call that gets through leaves its envelope in the file of its target. -/
theorem dump_self (set : dir ≠ none) (files : Files Event) {call : Call Event} (done : call.io = .done) :
    dumpEventsWithMode dir files call (filename call.target) = some (.envelope call.envelope) := by
  obtain ⟨dir, rfl⟩ := Option.ne_none_iff_exists'.mp set
  unfold dumpEventsWithMode
  rw [done]
  exact Files.write_self files _ _

/-- What is in a file was written by a call of its target. -/
theorem dumpAll_written {calls : List (Call Event)} {name : Name} {contents : Contents Event}
    (here : dumpAll dir calls name = some contents) :
    ∃ call ∈ calls, name = filename call.target ∧ Writes dir call contents := by
  induction calls using List.reverseRecOn with
  | nil => cases here
  | append_singleton calls call ih =>
    rw [dumpAll, List.foldl_append, List.foldl_cons, List.foldl_nil, ← dumpAll] at here
    by_cases own : name = filename call.target
    · rcases dump_cases dir (dumpAll dir calls) call with same | ⟨written, writes, same⟩
      · rw [same] at here
        obtain ⟨other, member, provenance⟩ := ih here
        exact ⟨other, List.mem_append_left _ member, provenance⟩
      · rw [same, own, Files.write_self] at here
        obtain rfl := Option.some.inj here
        exact ⟨call, List.mem_append_right _ (List.mem_singleton_self _), own, writes⟩
    · rw [dump_other _ call own] at here
      obtain ⟨other, member, provenance⟩ := ih here
      exact ⟨other, List.mem_append_left _ member, provenance⟩

/-- An envelope in a file is that of a call of its target that got through. -/
theorem dumpAll_envelope {calls : List (Call Event)} {name : Name} {envelope : Envelope Event}
    (here : dumpAll dir calls name = some (.envelope envelope)) :
    ∃ call ∈ calls, dir ≠ none ∧ call.io = .done ∧ name = filename call.target ∧ envelope = call.envelope := by
  obtain ⟨call, member, own, writes⟩ := dumpAll_written here
  cases writes with
  | envelope set done => exact ⟨call, member, set, done, own, rfl⟩

/-- Calls that all get through, to files of their own, leave all their envelopes. -/
theorem dumpAll_own (set : dir ≠ none) {calls : List (Call Event)} (done : ∀ call ∈ calls, call.io = .done)
    (apart : calls.Pairwise (fun first second => filename first.target ≠ filename second.target)) :
    ∀ call ∈ calls, dumpAll dir calls (filename call.target) = some (.envelope call.envelope) := by
  induction calls using List.reverseRecOn with
  | nil => simp
  | append_singleton calls last ih =>
    rw [List.pairwise_append] at apart
    intro call member
    rw [dumpAll, List.foldl_append, List.foldl_cons, List.foldl_nil]
    rcases List.mem_append.mp member with earlier | own
    · rw [dump_other _ last (apart.2.2 call earlier last (List.mem_singleton_self _))]
      exact ih (fun other member => done other (List.mem_append_left _ member)) apart.1 call earlier
    · obtain rfl := List.mem_singleton.mp own
      exact dump_self set _ (done call member)

/-! ## Different targets -/

/-- The directory is set, every call gets through, and no two of the targets are confusable. -/
structure Separate (dir : Option Name) (calls : List (Call Event)) : Prop where
  set : calls ≠ [] → dir ≠ none
  done : ∀ call ∈ calls, call.io = .done
  apart : ∀ call ∈ calls, ∀ other ∈ calls, call.target ≠ other.target → ¬ Confusable call.target other.target

variable {calls : List (Call Event)}

/-- Each call of different targets whose dumps survive got through, to the file that holds its envelope. -/
theorem own_call (distinct : (calls.map Call.target).Nodup) (kept : Kept dir calls) {call : Call Event}
    (member : call ∈ calls) :
    dir ≠ none ∧ call.io = .done ∧ dumpAll dir calls (filename call.target) = some (.envelope call.envelope) := by
  obtain ⟨name, here, _⟩ := (kept calls (List.Perm.refl _)).own call member
  obtain ⟨other, member', set, done, rfl, same⟩ := dumpAll_envelope here
  obtain rfl := List.inj_on_of_nodup_map distinct member member' (congrArg Envelope.target same)
  exact ⟨set, done, here⟩

theorem not_confusable_of_kept (form : ∀ call ∈ calls, IsTarget call.target) (distinct : (calls.map Call.target).Nodup)
    (kept : Kept dir calls) {call other : Call Event} (member : call ∈ calls) (member' : other ∈ calls)
    (ne : call.target ≠ other.target) : ¬ Confusable call.target other.target := by
  intro confusable
  have file := (filename_eq_iff (form call member) (form other member')).mpr confusable
  have here := (own_call distinct kept member).2.2
  have here' := (own_call distinct kept member').2.2
  rw [← file, here] at here'
  apply ne
  exact congrArg Envelope.target (Contents.envelope.inj (Option.some.inj here'))

/-- Calls in files of their own leave one file for each target. -/
theorem filed_of_apart (set : calls ≠ [] → dir ≠ none) (done : ∀ call ∈ calls, call.io = .done)
    (apart : calls.Pairwise (fun first second => filename first.target ≠ filename second.target)) :
    Filed (dumpAll dir calls) calls where
  own := by
    intro call member
    refine ⟨filename call.target, dumpAll_own (set (List.ne_nil_of_mem member)) done apart call member, ?_⟩
    intro name here
    obtain ⟨other, _, _, _, rfl, same⟩ := dumpAll_envelope here
    rw [show other.target = call.target from (congrArg Envelope.target same).symm]
  only := by
    intro name contents here
    obtain ⟨call, member, _, writes⟩ := dumpAll_written here
    cases writes with
    | envelope => exact ⟨call, member, rfl⟩
    | fragment torn => exact absurd ((done call member).symm.trans torn) (by decide)

/-- The dumps of different targets survive each other exactly when all get through and no two targets are confusable. -/
theorem kept_iff (form : ∀ call ∈ calls, IsTarget call.target) (distinct : (calls.map Call.target).Nodup) :
    Kept dir calls ↔ Separate dir calls := by
  constructor
  · intro kept
    constructor
    · intro some
      obtain ⟨call, member⟩ := List.exists_mem_of_ne_nil calls some
      exact (own_call distinct kept member).1
    · intro call member
      exact (own_call distinct kept member).2.1
    · intro call member other member'
      exact not_confusable_of_kept form distinct kept member member'
  · intro separate order perm
    have apart : order.Pairwise (fun first second => filename first.target ≠ filename second.target) := by
      have different := List.pairwise_map.mp ((perm.map Call.target).nodup_iff.mpr distinct)
      apply different.imp_of_mem
      intro first second member member' ne same
      have member := perm.mem_iff.mp member
      have member' := perm.mem_iff.mp member'
      apply separate.apart first member second member' ne
      exact (filename_eq_iff (form first member) (form second member')).mp same
    have set : order ≠ [] → dir ≠ none := by
      intro some
      apply separate.set
      rintro rfl
      exact some (List.perm_nil.mp perm)
    have filed := filed_of_apart set (fun call member => separate.done call (perm.mem_iff.mp member)) apart
    constructor
    · intro call member
      exact filed.own call (perm.mem_iff.mpr member)
    · intro name contents here
      obtain ⟨call, member, same⟩ := filed.only name contents here
      exact ⟨call, perm.mem_iff.mp member, same⟩

/-! ## Names that cannot be confused -/

/-- A segment with no two underscores in a row and none at its end. -/
structure IsPlain (segment : Name) : Prop where
  colon : ':' ∉ segment
  double : ¬ ['_', '_'] <:+: segment
  final : ¬ ['_'] <:+ segment

/-- What may follow a segment in a file name: nothing, or the underscores that came from two colons. -/
def Follows (tail : Name) : Prop := tail = [] ∨ ∃ later, tail = '_' :: '_' :: later

theorem targetName_cons {segment : Name} (colon : ':' ∉ segment) (rest : List Name) :
    ∃ tail, (targetName (segment :: rest)).map underscored = segment ++ tail ∧ Follows tail ∧
      ((tail = [] ∧ rest = []) ∨ tail = '_' :: '_' :: (targetName rest).map underscored) := by
  have same := map_underscored colon
  cases rest with
  | nil => exact ⟨[], by rw [targetName, same, List.append_nil], .inl rfl, .inl ⟨rfl, rfl⟩⟩
  | cons next rest =>
    have whole : targetName (segment :: next :: rest) = segment ++ ':' :: ':' :: targetName (next :: rest) := rfl
    exact ⟨_, by rw [whole, List.map_append, same]; rfl, .inr ⟨_, rfl⟩, .inr rfl⟩

/-- A plain segment does not go on with the underscores that follow a shorter one. -/
theorem eq_nil_of_plain {segment extra rest tail : Name} (plain : IsPlain (segment ++ extra)) (follows : Follows tail)
    (same : tail = extra ++ rest) : extra = [] := by
  rcases follows with rfl | ⟨later, rfl⟩
  · exact (List.append_eq_nil_iff.mp same.symm).1
  · rcases extra with _ | ⟨first, _ | ⟨second, extra⟩⟩
    · rfl
    · obtain ⟨rfl, _⟩ := List.cons_eq_cons.mp same
      exact absurd (List.suffix_append segment _) plain.final
    · simp only [List.cons_append, List.cons.injEq] at same
      obtain ⟨rfl, rfl, _⟩ := same
      exact absurd ⟨segment, extra, by simp⟩ plain.double

/-- File names that agree agree segment by segment. -/
theorem segment_eq {segment segment' tail tail' : Name} (plain : IsPlain segment) (plain' : IsPlain segment')
    (follows : Follows tail) (follows' : Follows tail') (same : segment ++ tail = segment' ++ tail') :
    segment = segment' ∧ tail = tail' := by
  rcases List.append_eq_append_iff.mp same with ⟨extra, rfl, rest⟩ | ⟨extra, rfl, rest⟩
  · obtain rfl := eq_nil_of_plain plain' follows rest
    exact ⟨(List.append_nil _).symm, rest⟩
  · obtain rfl := eq_nil_of_plain plain follows' rest
    exact ⟨List.append_nil _, rest.symm⟩

/-- Plain segments are read back from the file name. -/
theorem segments_eq_of_plain {segments segments' : List Name}
    (plain : ∀ segment ∈ segments, IsPlain segment ∧ segment ≠ [])
    (plain' : ∀ segment ∈ segments', IsPlain segment ∧ segment ≠ [])
    (same : (targetName segments).map underscored = (targetName segments').map underscored) : segments = segments' := by
  induction segments generalizing segments' with
  | nil =>
    cases segments' with
    | nil => rfl
    | cons segment' rest' =>
      obtain ⟨tail', split', _⟩ := targetName_cons (plain' segment' List.mem_cons_self).1.colon rest'
      rw [split'] at same
      exact absurd (List.append_eq_nil_iff.mp same.symm).1 (plain' segment' List.mem_cons_self).2
  | cons segment rest ih =>
    cases segments' with
    | nil =>
      obtain ⟨tail, split, _⟩ := targetName_cons (plain segment List.mem_cons_self).1.colon rest
      rw [split] at same
      exact absurd (List.append_eq_nil_iff.mp same).1 (plain segment List.mem_cons_self).2
    | cons segment' rest' =>
      obtain ⟨tail, split, follows, kind⟩ := targetName_cons (plain segment List.mem_cons_self).1.colon rest
      obtain ⟨tail', split', follows', kind'⟩ := targetName_cons (plain' segment' List.mem_cons_self).1.colon rest'
      rw [split, split'] at same
      obtain ⟨rfl, rfl⟩ :=
        segment_eq (plain segment List.mem_cons_self).1 (plain' segment' List.mem_cons_self).1 follows follows' same
      congr 1
      rcases kind with ⟨rfl, rfl⟩ | long <;> rcases kind' with ⟨short, rfl⟩ | long'
      · rfl
      · cases long'
      · exact absurd (long.symm.trans short) (by simp)
      · apply ih (fun other member => plain other (List.mem_cons_of_mem _ member))
          (fun other member => plain' other (List.mem_cons_of_mem _ member))
        simpa using long.symm.trans long'

/-- Targets whose segments are plain are never confused, so that the dumps of calls that get through are separate. -/
theorem separate_of_plain (set : calls ≠ [] → dir ≠ none) (done : ∀ call ∈ calls, call.io = .done)
    (form : ∀ call ∈ calls, IsTarget call.target)
    (plain : ∀ call ∈ calls, ∃ segments, call.target = targetName segments ∧
      ∀ segment ∈ segments, IsPlain segment ∧ segment ≠ []) : Separate dir calls where
  set := set
  done := done
  apart := by
    intro call member other member' ne confusable
    have same := (filename_eq_iff (form call member) (form other member')).mpr confusable
    obtain ⟨segments, target, plainly⟩ := plain call member
    obtain ⟨segments', target', plainly'⟩ := plain other member'
    rw [target, target'] at same ne
    rw [filename, filename, List.append_left_inj,
      replace_targetName fun segment member => (plainly segment member).1.colon,
      replace_targetName fun segment member => (plainly' segment member).1.colon] at same
    exact ne (congrArg targetName (segments_eq_of_plain plainly plainly' same))

/-! ## Two targets -/

/-- A target of the segments, dumped without an event or an error. -/
def dumped (segments : List Name) : Call Unit where
  target := targetName segments
  expected := "clean"
  determinism := "fully_deterministic"
  captureMode := "verify"
  events := []
  io := .done

theorem isTarget_pair {segments segments' : List Name} (some : segments ≠ []) (some' : segments' ≠ [])
    (form : ∀ segment ∈ segments, IsSegment segment) (form' : ∀ segment ∈ segments', IsSegment segment) :
    ∀ call ∈ [dumped segments, dumped segments'], IsTarget call.target := by
  intro call member
  simp only [List.mem_cons, List.not_mem_nil, or_false] at member
  rcases member with rfl | rfl
  · exact ⟨segments, some, form, rfl⟩
  · exact ⟨segments', some', form', rfl⟩

theorem plain_letter {segment : Name} (letter : segment ∈ [['a'], ['b'], ['c'], ['d']]) :
    IsPlain segment ∧ segment ≠ [] := by
  simp only [List.mem_cons, List.not_mem_nil, or_false] at letter
  rcases letter with rfl | rfl | rfl | rfl <;> exact ⟨⟨by decide, by decide, by decide⟩, by decide⟩

/-- The modules `a::b` and `a` have functions `c` and `d`. -/
theorem kept_siblings : Kept (some ['o', 'u', 't']) [dumped [['a'], ['b'], ['c']], dumped [['a'], ['d']]] := by
  have form : ∀ call ∈ [dumped [['a'], ['b'], ['c']], dumped [['a'], ['d']]], IsTarget call.target :=
    isTarget_pair (by decide) (by decide) (by decide) (by decide)
  refine (kept_iff form (by decide)).mpr (separate_of_plain (fun _ => Option.some_ne_none _) ?_ form ?_)
  · exact List.forall_mem_cons.mpr ⟨rfl, List.forall_mem_singleton.mpr rfl⟩
  · intro call member
    simp only [List.mem_cons, List.not_mem_nil, or_false] at member
    rcases member with rfl | rfl
    · exact ⟨_, rfl, fun segment member => plain_letter (by revert member; revert segment; decide)⟩
    · exact ⟨_, rfl, fun segment member => plain_letter (by revert member; revert segment; decide)⟩

/-- `a::b::c` and `a::b__c` are dumped to one file. -/
theorem dump_overwritten : ¬ ∀ (dir : Option Name) (calls : List (Call Unit)), dir ≠ none →
    (∀ call ∈ calls, IsTarget call.target ∧ call.io = .done) → (calls.map Call.target).Nodup → Kept dir calls := by
  intro always
  let path := dumped [['a'], ['b'], ['c']]
  let flat := dumped [['a'], ['b', '_', '_', 'c']]
  have form : ∀ call ∈ [path, flat], IsTarget call.target :=
    isTarget_pair (by decide) (by decide) (by decide) (by decide)
  have done : ∀ call ∈ [path, flat], call.io = .done :=
    List.forall_mem_cons.mpr ⟨rfl, List.forall_mem_singleton.mpr rfl⟩
  have distinct : ([path, flat].map Call.target).Nodup := by decide
  have kept := always (some ['o', 'u', 't']) [path, flat] (Option.some_ne_none _)
    (fun call member => ⟨form call member, done call member⟩) distinct
  have member : path ∈ [path, flat] := by simp
  have member' : flat ∈ [path, flat] := by simp
  apply not_confusable_of_kept form distinct kept member member' (by decide)
  simp [Confusable, path, flat, dumped, targetName]

end Laplace.Soundness.Dump
