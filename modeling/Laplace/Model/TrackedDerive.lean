import Laplace.Model.Syntax
import Mathlib.Data.List.Infix

/-! # The `laplace_tracked` attribute

The struct items that the attribute takes, with the types of their fields as far as the macro looks into them, and
its expansion. Texts are lists of characters, so that the string tests of the source are tests on lists. Printing a
type and parsing the text again gives the type back, and error spans are left out.
-/

namespace Laplace.Model.Tracked

mutual
/-- `Type::Path`, or any other type as its tokens. -/
inductive Ty where
  | path (qself : Option Ty) (path : Path GenericArgument)
  | other (tokens : String)

/-- A type argument; a lifetime, a constant or an associated item is kept as its tokens. -/
inductive GenericArgument where
  | type (ty : Ty)
  | other (tokens : String)
end

/-- The value of a name-value argument, as far as it is a literal that an option takes. -/
inductive MetaValue where
  | str (value : String)
  | int (value : ℕ)
  | other
deriving DecidableEq, Repr

/-- One argument of `#[track(...)]`. -/
inductive Meta where
  | nameValue (path : Path Unit) (value : MetaValue)
  | other
deriving DecidableEq, Repr

/-- What stands behind the path of an attribute; a list is parsed, or fails with the parser's error. -/
inductive AttributeMeta where
  | path
  | list (args : Except String (List Meta))
  | nameValue (tokens : String)

structure Attribute where
  path : Path Unit
  args : AttributeMeta

structure Field where
  attrs : List Attribute
  vis : String
  ident : Ident
  ty : Ty

structure UnnamedField where
  attrs : List Attribute
  vis : String
  ty : Ty

inductive Fields where
  | named (fields : List Field)
  | unnamed (fields : List UnnamedField)
  | unit

/-- `header` is what stands before the fields: attributes, visibility, name and generics. -/
structure ItemStruct where
  header : String
  fields : Fields

structure TrackOptions where
  name : Option String := none
  permits : Option ℕ := none
deriving DecidableEq, Repr

inductive TrackError where
  | message (text : String)
  /-- `unsupported type for #[track]: `, and the type. -/
  | unsupportedType (ty : Ty)

/-- The first argument of a wrapper's `new`. -/
inductive InitialValue where
  /-- `<inner as ::std::default::Default>::default()`. -/
  | default (inner : Ty)
  | literal (text : String)
  | permits (count : ℕ)

/-- What the generated `Default` impl assigns to a field. -/
inductive DefaultCode where
  | default
  | new (wrapper : Ident) (value : InitialValue) (resource : String)

/-- `Path::is_ident`. -/
def isIdent (path : Path Unit) (ident : Ident) : Bool :=
  !path.leadingColon && path.segments == [⟨ident, .none⟩]

def Attribute.isTrack (attr : Attribute) : Bool := isIdent attr.path "track"

def Field.hasTrack (field : Field) : Bool := field.attrs.any Attribute.isTrack

/-- One argument of an attribute; `base10_parse` fails on what does not fit a `usize`. -/
def readMeta (options : TrackOptions) : Meta → Except TrackError TrackOptions
  | .nameValue path value =>
    if isIdent path "name" then
      match value with
      | .str name => .ok { options with name := some name }
      | _ => .error (.message "#[track(name = ...)] requires a string literal")
    else if isIdent path "permits" then
      match value with
      | .int permits =>
        if permits < UInt64.size then .ok { options with permits := some permits }
        else .error (.message "number too large to fit in target type")
      | _ => .error (.message "#[track(permits = ...)] requires an integer literal")
    else .error (.message "unsupported #[track] argument; expected name = \"...\" or permits = N")
  | .other => .error (.message "unsupported #[track] argument; expected name = \"...\" or permits = N")

def readAttribute (options : TrackOptions) (attr : Attribute) : Except TrackError TrackOptions :=
  if attr.isTrack then
    match attr.args with
    | .list (.ok metas) => metas.foldlM readMeta options
    | .list (.error text) => .error (.message text)
    | .path | .nameValue _ => .ok options
  else .ok options

/-- Extract supported options from `#[track(...)]`. -/
def extractTrackOptions (attrs : List Attribute) : Except TrackError TrackOptions := attrs.foldlM readAttribute {}

/-- `str::contains`. -/
def contains (text pattern : List Char) : Bool := pattern <:+: text

/-- `str::ends_with`. -/
def endsWith (text pattern : List Char) : Bool := pattern <:+ text

/-- The identifiers of the segments, joined with `::`. -/
def typepathToString (path : Path GenericArgument) : List Char :=
  "::".toList.intercalate (path.idents.map String.toList)

/-- Extract the first generic argument from a type path. -/
def extractFirstGeneric (path : Path GenericArgument) : Option Ty :=
  match path.segments.getLast? with
  | some ⟨_, .angleBracketed (.type inner :: _)⟩ => some inner
  | _ => none

/-- `::laplace_sdk::__macro_support::wrapper`. -/
def support (wrapper : Ident) (arguments : PathArguments GenericArgument) : Ty :=
  .path none ⟨true, [⟨"laplace_sdk", .none⟩, ⟨"__macro_support", .none⟩, ⟨wrapper, arguments⟩]⟩

abbrev Mapped := Except TrackError (Ty × DefaultCode)

/-- A test for a lock; without a type argument it falls through to the next test. -/
def lock (test : Bool) (wrapper : Ident) (path : Path GenericArgument) (resource : String) : Option Mapped :=
  if test then
    (extractFirstGeneric path).map fun inner =>
      .ok (support wrapper (.angleBracketed [.type inner]), .new wrapper (.default inner) resource)
  else none

/-- A test for an atomic. -/
def atomic (test : Bool) (wrapper : Ident) (initial resource : String) : Option Mapped :=
  if test then some (.ok (support wrapper .none, .new wrapper (.literal initial) resource)) else none

/-- The test for a semaphore. -/
def semaphore (test : Bool) (resource : String) (options : TrackOptions) : Option Mapped :=
  if test then
    some <| match options.permits with
      | none => .error (.message "Semaphore fields require #[track(permits = N)]")
      | some permits => .ok (support "TrackedSemaphore" .none, .new "TrackedSemaphore" (.permits permits) resource)
  else none

/-- Map a field type to its `Tracked*` equivalent and default code: the first test that returns. -/
def mapFieldTypeToTracked (fieldType : Ty) (resource : String) (options : TrackOptions) : Mapped :=
  match fieldType with
  | .path _ path =>
    let text := typepathToString path
    let mapped :=
      lock (contains text "std::sync::Mutex".toList || contains text "::std::sync::Mutex".toList)
        "TrackedStdMutex" path resource
      <|> lock (contains text "std::sync::RwLock".toList || contains text "::std::sync::RwLock".toList)
        "TrackedStdRwLock" path resource
      <|> lock (endsWith text "Mutex".toList) "TrackedMutex" path resource
      <|> lock (endsWith text "RwLock".toList && !contains text "std::sync".toList) "TrackedRwLock" path resource
      <|> atomic (endsWith text "AtomicBool".toList) "TrackedAtomicBool" "false" resource
      <|> atomic (endsWith text "AtomicU32".toList) "TrackedAtomicU32" "0" resource
      <|> atomic (endsWith text "AtomicU64".toList) "TrackedAtomicU64" "0" resource
      <|> atomic (endsWith text "AtomicUsize".toList) "TrackedAtomicUsize" "0" resource
      <|> semaphore (endsWith text "Semaphore".toList) resource options
    mapped.getD (.error (.unsupportedType fieldType))
  | .other _ => .error (.unsupportedType fieldType)

/-- The local collections of `expand_attribute`. -/
structure Progress where
  modifiedFields : List Field := []
  defaultAssignments : List (Ident × DefaultCode) := []
  resourceNames : List String := []

def Progress.push (progress : Progress) (field : Field) (code : DefaultCode) : Progress :=
  { progress with
    modifiedFields := progress.modifiedFields ++ [field]
    defaultAssignments := progress.defaultAssignments ++ [(field.ident, code)] }

/-- One round of the loop over the fields. -/
def processField (progress : Progress) (field : Field) : Except TrackError Progress :=
  if field.hasTrack then do
    let options ← extractTrackOptions field.attrs
    let resource := options.name.getD field.ident
    if resource ∈ progress.resourceNames then
      .error (.message ("duplicate resource name: '" ++ resource ++ "'"))
    else do
      let (ty, code) ← mapFieldTypeToTracked field.ty resource options
      let progress := { progress with resourceNames := resource :: progress.resourceNames }
      return progress.push { field with ty, attrs := field.attrs.filter (!·.isTrack) } code
  else return progress.push field .default

inductive Expansion where
  | ok (item : ItemStruct) (defaultAssignments : List (Ident × DefaultCode))
  | err (error : TrackError)
  | panicked (message : String)

/-- Expand `#[laplace_tracked]`. The fields of a struct without names are not looked at before the struct is put
together again. -/
def expandAttribute (item : ItemStruct) : Expansion :=
  match item.fields with
  | .named fields =>
    match fields.foldlM processField {} with
    | .ok progress => .ok { item with fields := .named progress.modifiedFields } progress.defaultAssignments
    | .error error => .err error
  | .unnamed _ | .unit => .panicked "internal error: entered unreachable code"

end Laplace.Model.Tracked
