import Laplace.Model.TrackedDerive
import Mathlib.Data.List.Forall2

/-! # Which fields the tracked attribute substitutes

The type of a tracked field is recognized by the text of its path: what contains `std::sync::Mutex`, or ends with
`Mutex`, is taken for a mutex. On the listed paths these tests choose the wrapper of the primitive that is named;
they choose one for many other paths as well, and for those the attribute should have failed.
-/

namespace Laplace.Soundness.Tracked

open Model Model.Tracked

inductive Wrapper where
  | stdMutex
  | stdRwLock
  | mutex
  | rwLock
  | atomicBool
  | atomicU32
  | atomicU64
  | atomicUsize
  | semaphore
deriving DecidableEq, Repr

namespace Wrapper

def ident : Wrapper → Ident
  | stdMutex => "TrackedStdMutex"
  | stdRwLock => "TrackedStdRwLock"
  | mutex => "TrackedMutex"
  | rwLock => "TrackedRwLock"
  | atomicBool => "TrackedAtomicBool"
  | atomicU32 => "TrackedAtomicU32"
  | atomicU64 => "TrackedAtomicU64"
  | atomicUsize => "TrackedAtomicUsize"
  | semaphore => "TrackedSemaphore"

/-- A lock keeps its type argument. -/
def arguments : Wrapper → Option Ty → PathArguments GenericArgument
  | stdMutex, some inner | stdRwLock, some inner | mutex, some inner | rwLock, some inner =>
    .angleBracketed [.type inner]
  | _, _ => .none

/-- The wrapper's type, for a field of this path. -/
def type (wrapper : Wrapper) (path : Path GenericArgument) : Ty :=
  support wrapper.ident (wrapper.arguments (extractFirstGeneric path))

end Wrapper

/-! ## The claimed substitution -/

def primitives : List Ident :=
  ["Mutex", "RwLock", "AtomicBool", "AtomicU32", "AtomicU64", "AtomicUsize", "Semaphore"]

/-- Where the primitives lie; a bare name lies nowhere. -/
def modules : List (List Ident) := [[], ["tokio", "sync"], ["std", "sync"], ["std", "sync", "atomic"]]

/-- The std wrappers are for the two locks of `std::sync`. -/
def wrapperOf (parent : List Ident) (primitive : Ident) : Option Wrapper :=
  match primitive with
  | "Mutex" => some (if parent = ["std", "sync"] then .stdMutex else .mutex)
  | "RwLock" => some (if parent = ["std", "sync"] then .stdRwLock else .rwLock)
  | "AtomicBool" => some .atomicBool
  | "AtomicU32" => some .atomicU32
  | "AtomicU64" => some .atomicU64
  | "AtomicUsize" => some .atomicUsize
  | "Semaphore" => some .semaphore
  | _ => none

/-- The type is a plain path to the primitive of the module. -/
def Names (ty : Ty) (path : Path GenericArgument) (parent : List Ident) (primitive : Ident) : Prop :=
  ty = .path none path ∧ path.idents = parent ++ [primitive] ∧ (parent = [] → path.leadingColon = false)

def Listed (ty : Ty) : Prop := ∃ path, ∃ parent ∈ modules, ∃ primitive ∈ primitives, Names ty path parent primitive

def IsWrapperOf (before after : Ty) : Prop :=
  ∃ path, ∃ parent ∈ modules, ∃ primitive ∈ primitives, ∃ wrapper, Names before path parent primitive ∧
    wrapperOf parent primitive = some wrapper ∧ after = wrapper.type path

structure Substituted (before after : Field) : Prop where
  ident : after.ident = before.ident
  vis : after.vis = before.vis
  attrs : after.attrs.filter (!·.isTrack) = before.attrs.filter (!·.isTrack)
  untracked : before.hasTrack = false → after = before
  tracked : before.hasTrack = true → IsWrapperOf before.ty after.ty

/-- The name of a tracked field's resource. -/
def resourceName (field : Field) : String :=
  match extractTrackOptions field.attrs with
  | .ok options => options.name.getD field.ident
  | .error _ => field.ident

def resourceNames (fields : List Field) : List String := (fields.filter Field.hasTrack).map resourceName

/-- The expansion ends, and where it succeeds it has substituted the tracked fields and nothing else. -/
def Substitutes (item : ItemStruct) : Prop :=
  match expandAttribute item with
  | .ok expanded _ => expanded.header = item.header ∧ ∃ fields fields', item.fields = .named fields ∧
      expanded.fields = .named fields' ∧ List.Forall₂ Substituted fields fields' ∧ (resourceNames fields).Nodup
  | .err _ => True
  | .panicked _ => False

/-! ## The tests -/

/-- The wrapper that the tests choose for a path with this text, with a type argument or without. -/
def wrapperFor (text : List Char) (generic : Bool) : Option Wrapper :=
  if contains text "std::sync::Mutex".toList ∧ generic then some .stdMutex
  else if contains text "std::sync::RwLock".toList ∧ generic then some .stdRwLock
  else if endsWith text "Mutex".toList ∧ generic then some .mutex
  else if endsWith text "RwLock".toList ∧ ¬ contains text "std::sync".toList ∧ generic then some .rwLock
  else if endsWith text "AtomicBool".toList then some .atomicBool
  else if endsWith text "AtomicU32".toList then some .atomicU32
  else if endsWith text "AtomicU64".toList then some .atomicU64
  else if endsWith text "AtomicUsize".toList then some .atomicUsize
  else if endsWith text "Semaphore".toList then some .semaphore
  else none

/-- The second test of each pair adds nothing to the first. -/
theorem contains_or_colon (text rest : List Char) :
    (contains text rest || contains text (':' :: ':' :: rest)) = contains text rest := by
  rw [Bool.or_eq_left_iff_imp]
  intro longer
  simp only [contains, decide_eq_true_eq] at longer ⊢
  exact (List.suffix_append [':', ':'] rest).isInfix.trans longer

/-- The type that a test returns, if it returns. -/
def typeOf (mapped : Option Mapped) : Option (Option Ty) := mapped.map fun result => result.toOption.map Prod.fst

theorem typeOf_orElse (first second : Option Mapped) : typeOf (first <|> second) = (typeOf first <|> typeOf second) := by
  cases first <;> rfl

theorem typeOf_lock (wrapper : Wrapper) (name : Ident) (named : wrapper.ident = name)
    (locks : wrapper ∈ [.stdMutex, .stdRwLock, .mutex, .rwLock]) (test : Bool) (path : Path GenericArgument)
    (resource : String) :
    typeOf (lock test name path resource) =
      if test ∧ (extractFirstGeneric path).isSome then some (some (wrapper.type path)) else none := by
  subst name
  cases test with
  | false => simp [lock, typeOf]
  | true =>
    cases generic : extractFirstGeneric path with
    | none => simp [lock, typeOf, generic]
    | some inner =>
      have keeps : wrapper.arguments (some inner) = .angleBracketed [.type inner] := by
        simp only [List.mem_cons, List.not_mem_nil, or_false] at locks
        rcases locks with rfl | rfl | rfl | rfl <;> rfl
      simp [lock, typeOf, generic, Wrapper.type, keeps, Except.toOption]

theorem typeOf_atomic (wrapper : Wrapper) (name : Ident) (named : wrapper.ident = name)
    (atomics : wrapper ∈ [.atomicBool, .atomicU32, .atomicU64, .atomicUsize]) (test : Bool)
    (path : Path GenericArgument) (initial resource : String) :
    typeOf (atomic test name initial resource) = if test then some (some (wrapper.type path)) else none := by
  subst name
  have plain : wrapper.arguments (extractFirstGeneric path) = .none := by
    simp only [List.mem_cons, List.not_mem_nil, or_false] at atomics
    rcases atomics with rfl | rfl | rfl | rfl <;> rfl
  cases test with
  | false => rfl
  | true => simp [atomic, typeOf, Wrapper.type, plain, Except.toOption]

theorem typeOf_semaphore (test : Bool) (path : Path GenericArgument) (resource : String) (options : TrackOptions) :
    typeOf (semaphore test resource options) =
      if test then some (if options.permits = none then none else some (Wrapper.semaphore.type path)) else none := by
  cases test with
  | false => rfl
  | true =>
    cases permits : options.permits with
    | none => simp [semaphore, typeOf, permits, Except.toOption]
    | some count =>
      simp [semaphore, typeOf, permits, Except.toOption]
      rfl

theorem ite_orElse {α : Type} (condition : Prop) [Decidable condition] (first : α) (second : Option α) :
    ((if condition then some first else none) <|> second) = if condition then some first else second := by
  split <;> rfl

theorem ite_getD {α : Type} (condition : Prop) [Decidable condition] (first : α) (second : Option α) (default : α) :
    (if condition then some first else second).getD default = if condition then first else second.getD default := by
  split <;> rfl

theorem ite_bind {α β : Type} (condition : Prop) [Decidable condition] (first : α) (second : Option α)
    (next : α → Option β) :
    (if condition then some first else second).bind next = if condition then next first else second.bind next := by
  split <;> rfl

/-- The type a field gets, where the mapping succeeds: that of the wrapper its text chooses. -/
theorem mapFieldTypeToTracked_type (qself : Option Ty) (path : Path GenericArgument) (resource : String)
    (options : TrackOptions) :
    (mapFieldTypeToTracked (.path qself path) resource options).toOption.map Prod.fst =
      (wrapperFor (typepathToString path) (extractFirstGeneric path).isSome).bind fun wrapper =>
        if wrapper = .semaphore ∧ options.permits = none then none else some (wrapper.type path) := by
  have shown (mapped : Option Mapped) (error : TrackError) :
      (mapped.getD (.error error)).toOption.map Prod.fst = (typeOf mapped).getD none := by
    cases mapped <;> rfl
  have stdMutex := contains_or_colon (typepathToString path) "std::sync::Mutex".toList
  have stdRwLock := contains_or_colon (typepathToString path) "std::sync::RwLock".toList
  change (_ || contains _ "::std::sync::Mutex".toList) = _ at stdMutex
  change (_ || contains _ "::std::sync::RwLock".toList) = _ at stdRwLock
  rw [mapFieldTypeToTracked, shown]
  simp only [typeOf_orElse, stdMutex, stdRwLock, typeOf_lock .stdMutex "TrackedStdMutex" rfl (by decide),
    typeOf_lock .stdRwLock "TrackedStdRwLock" rfl (by decide), typeOf_lock .mutex "TrackedMutex" rfl (by decide),
    typeOf_lock .rwLock "TrackedRwLock" rfl (by decide),
    typeOf_atomic .atomicBool "TrackedAtomicBool" rfl (by decide) _ path,
    typeOf_atomic .atomicU32 "TrackedAtomicU32" rfl (by decide) _ path,
    typeOf_atomic .atomicU64 "TrackedAtomicU64" rfl (by decide) _ path,
    typeOf_atomic .atomicUsize "TrackedAtomicUsize" rfl (by decide) _ path, typeOf_semaphore _ path, ite_orElse,
    wrapperFor, Bool.and_eq_true, Bool.not_eq_true', and_assoc, Bool.not_eq_true, ite_getD, ite_bind, reduceCtorEq,
    false_and, true_and, ite_false, Option.getD_none, Option.bind_none]

/-- On a listed path the tests choose the wrapper of what it names. -/
theorem wrapperFor_listed : ∀ parent ∈ modules, ∀ primitive ∈ primitives, ∀ generic,
    (wrapperFor ("::".toList.intercalate ((parent ++ [primitive]).map String.toList)) generic).all fun wrapper =>
      wrapperOf parent primitive == some wrapper := by
  decide

/-- The text of the type passes a test, and a semaphore comes with its permits. -/
def Resembles (ty : Ty) (options : TrackOptions) : Prop :=
  ∃ qself path wrapper, ty = .path qself path ∧
    wrapperFor (typepathToString path) (extractFirstGeneric path).isSome = some wrapper ∧
    ¬(wrapper = .semaphore ∧ options.permits = none)

/-- Exactly the types that resemble a primitive are mapped. -/
theorem mapped_iff_resembles (ty : Ty) (resource : String) (options : TrackOptions) :
    (∃ tracked code, mapFieldTypeToTracked ty resource options = .ok (tracked, code)) ↔ Resembles ty options := by
  cases ty with
  | other tokens =>
    apply iff_of_false
    · rintro ⟨tracked, code, mapped⟩
      cases mapped
    · rintro ⟨qself, path, wrapper, same, -⟩
      cases same
  | path qself path =>
    have type := mapFieldTypeToTracked_type qself path resource options
    constructor
    · rintro ⟨tracked, code, mapped⟩
      rw [mapped] at type
      obtain ⟨wrapper, chosen, shown⟩ := Option.bind_eq_some_iff.mp type.symm
      refine ⟨qself, path, wrapper, rfl, chosen, fun lacking => ?_⟩
      rw [if_pos lacking] at shown
      cases shown
    · rintro ⟨_, _, wrapper, same, chosen, permits⟩
      cases same
      rw [chosen, Option.bind_some, if_neg permits] at type
      obtain ⟨⟨tracked, code⟩, mapped, -⟩ := Option.map_eq_some_iff.mp type
      cases result : mapFieldTypeToTracked (.path qself path) resource options with
      | error error =>
        rw [result] at mapped
        cases mapped
      | ok pair => exact ⟨pair.1, pair.2, rfl⟩

/-- A listed type that is mapped gets the wrapper of what it names. -/
theorem isWrapperOf_of_listed {ty tracked : Ty} {resource : String} {options : TrackOptions} {code : DefaultCode}
    (listed : Listed ty) (mapped : mapFieldTypeToTracked ty resource options = .ok (tracked, code)) :
    IsWrapperOf ty tracked := by
  obtain ⟨path, parent, inModules, primitive, inPrimitives, names⟩ := listed
  obtain ⟨rfl, idents, bare⟩ := names
  have type := mapFieldTypeToTracked_type none path resource options
  rw [mapped] at type
  obtain ⟨wrapper, chosen, shown⟩ := Option.bind_eq_some_iff.mp type.symm
  split_ifs at shown
  have expected := wrapperFor_listed parent inModules primitive inPrimitives (extractFirstGeneric path).isSome
  rw [← idents] at expected
  change (wrapperFor (typepathToString path) _).all _ = true at expected
  rw [chosen, Option.all_some, beq_iff_eq] at expected
  exact ⟨path, parent, inModules, primitive, inPrimitives, wrapper, ⟨rfl, idents, bare⟩, expected,
    (Option.some.inj shown).symm⟩

/-! ## The fields -/

/-- The options of a tracked field are read, and its type resembles a primitive. -/
def Accepts (field : Field) : Prop :=
  ∃ options, extractTrackOptions field.attrs = .ok options ∧ Resembles field.ty options

/-- Nothing in the fields makes the expansion fail. -/
def Expandable (fields : List Field) : Prop :=
  (∀ field ∈ fields, field.hasTrack = true → Accepts field) ∧ (resourceNames fields).Nodup

/-- What the loop makes of a field. -/
inductive Processed (before : Field) : Field → Prop
  | untracked (plain : before.hasTrack = false) : Processed before before
  | tracked (marked : before.hasTrack = true) {resource : String} {options : TrackOptions} {ty : Ty}
      {code : DefaultCode} (mapped : mapFieldTypeToTracked before.ty resource options = .ok (ty, code)) :
      Processed before { before with ty, attrs := before.attrs.filter (!·.isTrack) }

theorem processField_untracked {field : Field} (plain : field.hasTrack = false) (progress : Progress) :
    processField progress field = .ok (progress.push field .default) := by
  rw [processField, plain]
  rfl

/-- A tracked field is processed exactly if it is accepted under a new name. -/
theorem processField_tracked {field : Field} (marked : field.hasTrack = true) (progress : Progress) :
    match processField progress field with
    | .ok next => Accepts field ∧ resourceName field ∉ progress.resourceNames ∧
        next.resourceNames = resourceName field :: progress.resourceNames ∧
        ∃ field', next.modifiedFields = progress.modifiedFields ++ [field'] ∧ Processed field field'
    | .error _ => ¬(Accepts field ∧ resourceName field ∉ progress.resourceNames) := by
  rw [processField, if_pos marked]
  cases read : extractTrackOptions field.attrs with
  | error error =>
    rintro ⟨⟨options, read', -⟩, -⟩
    rw [read] at read'
    cases read'
  | ok options =>
    have named : resourceName field = options.name.getD field.ident := by
      rw [resourceName, read]
    rw [named]
    change match (if _ then _ else _ : Except TrackError Progress) with | .ok next => _ | .error _ => _
    by_cases used : options.name.getD field.ident ∈ progress.resourceNames
    · rw [if_pos used]
      exact fun both => both.2 used
    · rw [if_neg used]
      have accepts := mapped_iff_resembles field.ty (options.name.getD field.ident) options
      cases mapped : mapFieldTypeToTracked field.ty (options.name.getD field.ident) options with
      | error error =>
        rintro ⟨⟨options', read', resembles⟩, -⟩
        obtain rfl := Except.ok.inj (read.symm.trans read')
        obtain ⟨tracked, code, mapped'⟩ := accepts.mpr resembles
        rw [mapped] at mapped'
        cases mapped'
      | ok pair =>
        exact ⟨⟨options, read, accepts.mp ⟨_, _, mapped⟩⟩, used, rfl, _, rfl, .tracked marked mapped⟩

/-- Nothing in the fields makes the expansion fail after these resource names are taken. -/
def ExpandableAfter (used : List String) (fields : List Field) : Prop :=
  (∀ field ∈ fields, field.hasTrack = true → Accepts field) ∧ (resourceNames fields).Nodup ∧
    ∀ name ∈ resourceNames fields, name ∉ used

theorem expandableAfter_nil (fields : List Field) : ExpandableAfter [] fields ↔ Expandable fields := by
  simp [ExpandableAfter, Expandable]

theorem expandableAfter_untracked {field : Field} (plain : field.hasTrack = false) (used : List String)
    (rest : List Field) : ExpandableAfter used (field :: rest) ↔ ExpandableAfter used rest := by
  simp [ExpandableAfter, resourceNames, plain]

theorem expandableAfter_tracked {field : Field} (marked : field.hasTrack = true) (used : List String)
    (rest : List Field) :
    ExpandableAfter used (field :: rest) ↔
      (Accepts field ∧ resourceName field ∉ used) ∧ ExpandableAfter (resourceName field :: used) rest := by
  have names : resourceNames (field :: rest) = resourceName field :: resourceNames rest := by
    simp [resourceNames, marked]
  simp only [ExpandableAfter, names, List.forall_mem_cons, List.nodup_cons, marked, forall_true_left]
  simp only [List.mem_cons, not_or]
  constructor
  · rintro ⟨⟨accepts, others⟩, ⟨fresh, distinct⟩, unused, unusedRest⟩
    refine ⟨⟨accepts, unused⟩, others, distinct, fun name member => ⟨?_, unusedRest name member⟩⟩
    rintro rfl
    exact fresh member
  · rintro ⟨⟨accepts, unused⟩, others, distinct, apart⟩
    refine ⟨⟨accepts, others⟩, ⟨fun member => ?_, distinct⟩, unused, fun name member => (apart name member).2⟩
    exact (apart _ member).1 rfl

/-- The loop gets through exactly the expandable fields, and processes each. -/
theorem processFields (fields : List Field) (progress : Progress) :
    match fields.foldlM processField progress with
    | .ok final => ExpandableAfter progress.resourceNames fields ∧
        ∃ fields', final.modifiedFields = progress.modifiedFields ++ fields' ∧ List.Forall₂ Processed fields fields'
    | .error _ => ¬ ExpandableAfter progress.resourceNames fields := by
  induction fields generalizing progress with
  | nil => exact ⟨by simp [ExpandableAfter, resourceNames], [], (List.append_nil _).symm, .nil⟩
  | cons field rest ih =>
    rw [List.foldlM_cons]
    cases marked : field.hasTrack with
    | false =>
      rw [processField_untracked marked]
      have later := ih (progress.push field .default)
      change match rest.foldlM processField (progress.push field .default) with | .ok final => _ | .error _ => _
      cases result : rest.foldlM processField (progress.push field .default) with
      | error error =>
        rw [result] at later
        exact fun all => later ((expandableAfter_untracked marked _ rest).mp all)
      | ok final =>
        rw [result] at later
        obtain ⟨all, fields', shown, processed⟩ := later
        refine ⟨(expandableAfter_untracked marked _ rest).mpr all, field :: fields', ?_, .cons (.untracked marked) processed⟩
        rw [shown]
        exact List.append_assoc _ [field] fields'
    | true =>
      have step := processField_tracked marked progress
      cases stepped : processField progress field with
      | error error =>
        rw [stepped] at step
        exact fun all => step ((expandableAfter_tracked marked _ rest).mp all).1
      | ok next =>
        rw [stepped] at step
        obtain ⟨accepts, unused, names, field', modified, done⟩ := step
        have later := ih next
        rw [names] at later
        change match rest.foldlM processField next with | .ok final => _ | .error _ => _
        cases result : rest.foldlM processField next with
        | error error =>
          rw [result] at later
          exact fun all => later ((expandableAfter_tracked marked _ rest).mp all).2
        | ok final =>
          rw [result] at later
          obtain ⟨all, fields', shown, processed⟩ := later
          refine ⟨(expandableAfter_tracked marked _ rest).mpr ⟨⟨accepts, unused⟩, all⟩, field' :: fields', ?_,
            .cons done processed⟩
          rw [shown, modified, List.append_assoc, List.singleton_append]

/-! ## The expansion -/

theorem Processed.substituted {before after : Field} (processed : Processed before after)
    (listed : before.hasTrack = true → Listed before.ty) : Substituted before after := by
  cases processed with
  | untracked plain => exact ⟨rfl, rfl, rfl, fun _ => rfl, fun marked => absurd (plain.symm.trans marked) (by decide)⟩
  | tracked marked mapped =>
    constructor
    · rfl
    · rfl
    · simp only [List.filter_filter, Bool.and_self]
    · intro plain
      exact absurd (plain.symm.trans marked) (by decide)
    · intro _
      exact isWrapperOf_of_listed (listed marked) mapped

theorem IsWrapperOf.listed {before after : Ty} (wraps : IsWrapperOf before after) : Listed before := by
  obtain ⟨path, parent, inModules, primitive, inPrimitives, wrapper, names, -⟩ := wraps
  exact ⟨path, parent, inModules, primitive, inPrimitives, names⟩

theorem substituted_of_processed {fields fields' : List Field} (processed : List.Forall₂ Processed fields fields')
    (listed : ∀ field ∈ fields, field.hasTrack = true → Listed field.ty) :
    List.Forall₂ Substituted fields fields' := by
  induction processed with
  | nil => exact .nil
  | cons head tail ih =>
    apply List.Forall₂.cons
    · exact head.substituted (listed _ List.mem_cons_self)
    · exact ih fun field member => listed field (List.mem_cons_of_mem _ member)

theorem listed_of_substituted {fields fields' : List Field} (substituted : List.Forall₂ Substituted fields fields') :
    ∀ field ∈ fields, field.hasTrack = true → Listed field.ty := by
  induction substituted with
  | nil => exact fun field absent => absurd absent List.not_mem_nil
  | cons head tail ih =>
    intro field member marked
    rcases List.mem_cons.mp member with rfl | member
    · exact (head.tracked marked).listed
    · exact ih field member marked

/-- **Where tracked fields are substituted exactly.** The expansion does not panic, and substitutes the wrapper of
the primitive that each tracked field names and nothing else, exactly if the fields have names, and either something
in them makes it fail or every tracked field has one of the listed types. -/
theorem tracked_fields_exact (item : ItemStruct) :
    Substitutes item ↔ ∃ fields, item.fields = .named fields ∧
      (Expandable fields → ∀ field ∈ fields, field.hasTrack = true → Listed field.ty) := by
  rw [Substitutes, expandAttribute]
  cases named : item.fields with
  | unnamed fields => simp
  | unit => simp
  | named fields =>
    have loop := processFields fields {}
    simp only [Fields.named.injEq, exists_eq_left']
    cases result : fields.foldlM processField {} with
    | error error =>
      rw [result] at loop
      simp only [true_iff]
      exact fun expandable => absurd ((expandableAfter_nil fields).mpr expandable) loop
    | ok progress =>
      rw [result] at loop
      obtain ⟨all, fields', shown, processed⟩ := loop
      have expandable := (expandableAfter_nil fields).mp all
      obtain rfl : progress.modifiedFields = fields' := shown
      constructor
      · rintro ⟨-, _, _, same, same', substituted, -⟩ -
        cases same
        cases same'
        exact listed_of_substituted substituted
      · intro listed
        exact ⟨rfl, fields, progress.modifiedFields, rfl, rfl, substituted_of_processed processed (listed expandable),
          expandable.2⟩

/-- The attribute `#[track]` without arguments. -/
def track : Attribute := ⟨⟨false, [⟨"track", .none⟩]⟩, .path⟩

/-- A struct of one type. -/
def tupleStruct : ItemStruct := ⟨"struct Shared", .unnamed [⟨[track], "", .path none ⟨false, [⟨"AtomicBool", .none⟩]⟩⟩]⟩

/-- A guard of a `std::sync` lock, with its type argument. -/
def guardType : Ty := .path none ⟨false, [⟨"std", .none⟩, ⟨"sync", .none⟩, ⟨"MutexGuard", .angleBracketed [.type (.other "u64")]⟩]⟩

def guardStruct : ItemStruct := ⟨"struct Shared", .named [⟨[track], "", "guard", guardType⟩]⟩

theorem guardType_unlisted : ¬ Listed guardType := by
  rintro ⟨path, parent, inModules, primitive, inPrimitives, names⟩
  obtain ⟨same, idents, -⟩ := names
  cases same
  revert parent primitive
  decide

/-- A tuple struct panics, and a guard is substituted by a lock. -/
theorem tracked_fields_inexact : ¬ Substitutes tupleStruct ∧ ¬ Substitutes guardStruct := by
  constructor
  · exact id
  · rintro ⟨-, fields, fields', same, -, substituted, -⟩
    cases same
    exact guardType_unlisted (listed_of_substituted substituted _ List.mem_cons_self rfl)

end Laplace.Soundness.Tracked
