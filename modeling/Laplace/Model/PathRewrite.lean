import Laplace.Model.Syntax

/-! # Path matchers of the model rewrite

The target tables of `#[laplace::model]`: which paths are replaced by a `::laplace_sdk::rt` path and
which are recognized but not modeled. Every matcher reads the identifiers of a path and, for some
segments, whether they carry arguments; the leading colon is never read.
-/

namespace Laplace.Model

variable {α : Type}

/-- A path segment without arguments. -/
def PathSegment.plain (ident : Ident) : PathSegment α := { ident }

/-- `::laplace_sdk::rt` followed by the given segments. -/
def rtPath (segments : List (PathSegment α)) : Path α :=
  { leadingColon := true, segments := .plain "laplace_sdk" :: .plain "rt" :: segments }

/-- No segment carries arguments. -/
def Path.allPlain (path : Path α) : Bool := path.segments.all fun segment => segment.arguments.isNone

/-- `matches!` on a slice of plain segments. -/
def Path.isPlain (path : Path α) (idents : List Ident) : Bool := path.allPlain && path.idents == idents

def isSupportedSpawnPath (path : Path α) : Bool :=
  path.isPlain ["std", "thread", "spawn"] || path.isPlain ["thread", "spawn"]

/-! ## Lock types and constructors -/

def modelTargetFor (ident : Ident) : Option Ident :=
  if ident = "Mutex" then some "ModelMutex"
  else if ident = "RwLock" then some "ModelRwLock"
  else none

def tokioModelTargetFor (ident : Ident) : Option Ident :=
  if ident = "Mutex" then some "ModelAsyncMutex"
  else if ident = "RwLock" then some "ModelAsyncRwLock"
  else if ident = "Semaphore" then some "ModelAsyncSemaphore"
  else if ident = "Notify" then some "ModelAsyncNotify"
  else none

def modelPath (target : Ident) (arguments : PathArguments α) (method : Option (PathSegment α)) : Path α :=
  rtPath (⟨target, arguments⟩ :: method.toList)

/-- A type path `root::module::Ty`, plain up to the type. -/
def rewriteTypePath (root module : Ident) (targetFor : Ident → Option Ident)
    (build : Ident → PathArguments α → Path α) (path : Path α) : Option (Path α) :=
  match path.segments with
  | [first, second, ty] =>
      if first.ident != root || second.ident != module then none
      else if !first.arguments.isNone || !second.arguments.isNone then none
      else (targetFor ty.ident).map fun target => build target ty.arguments
  | _ => none

/-- A constructor path `root::module::Ty::method`, plain except on the type. -/
def rewriteConstructorPath (root module : Ident) (targetFor : Ident → Option Ident) (methods : List Ident)
    (path : Path α) : Option (Path α) :=
  match path.segments with
  | [first, second, ty, method] =>
      if first.ident != root || second.ident != module then none
      else if !first.arguments.isNone || !second.arguments.isNone || !methods.contains method.ident
        || !method.arguments.isNone then none
      else (targetFor ty.ident).map fun target => modelPath target ty.arguments (some method)
  | _ => none

def rewriteStdSyncTypePath : Path α → Option (Path α) :=
  rewriteTypePath "std" "sync" modelTargetFor fun target arguments => modelPath target arguments none

def rewriteStdSyncConstructorPath : Path α → Option (Path α) :=
  rewriteConstructorPath "std" "sync" modelTargetFor ["new"]

def rewriteTokioSyncTypePath : Path α → Option (Path α) :=
  rewriteTypePath "tokio" "sync" tokioModelTargetFor fun target arguments => modelPath target arguments none

/-- Unlike the `std` side, the tokio model types also have `const_new`. -/
def rewriteTokioSyncConstructorPath : Path α → Option (Path α) :=
  rewriteConstructorPath "tokio" "sync" tokioModelTargetFor ["new", "const_new"]

/-! ## Channels -/

def tokioChannelFnTargetFor (module func : Ident) : Option (Ident × Ident) :=
  match module, func with
  | "mpsc", "channel" => some ("mpsc", "channel")
  | "mpsc", "unbounded_channel" => some ("mpsc", "unbounded_channel")
  | "oneshot", "channel" => some ("oneshot", "channel")
  | "watch", "channel" => some ("watch", "channel")
  | "broadcast", "channel" => some ("broadcast", "channel")
  | _, _ => none

def tokioChannelTypeTargetFor (module ty : Ident) : Option (Ident × Ident) :=
  match module, ty with
  | "mpsc", "Sender" => some ("mpsc", "Sender")
  | "mpsc", "Receiver" => some ("mpsc", "Receiver")
  | "mpsc", "UnboundedSender" => some ("mpsc", "UnboundedSender")
  | "mpsc", "UnboundedReceiver" => some ("mpsc", "UnboundedReceiver")
  | "oneshot", "Sender" => some ("oneshot", "Sender")
  | "oneshot", "Receiver" => some ("oneshot", "Receiver")
  | "watch", "Sender" => some ("watch", "Sender")
  | "watch", "Receiver" => some ("watch", "Receiver")
  | "watch", "Ref" => some ("watch", "Ref")
  | "broadcast", "Sender" => some ("broadcast", "Sender")
  | "broadcast", "Receiver" => some ("broadcast", "Receiver")
  | _, _ => none

def channelPath (module name : Ident) (arguments : PathArguments α) : Path α :=
  rtPath [.plain module, ⟨name, arguments⟩]

/-- `tokio::sync::module::name`, plain up to the name. -/
def rewriteChannelPath (targetFor : Ident → Ident → Option (Ident × Ident)) (path : Path α) : Option (Path α) :=
  match path.segments with
  | [tokio, sync, module, name] =>
      if tokio.ident != "tokio" || sync.ident != "sync" then none
      else if !tokio.arguments.isNone || !sync.arguments.isNone || !module.arguments.isNone then none
      else (targetFor module.ident name.ident).map fun target => channelPath target.1 target.2 name.arguments
  | _ => none

def rewriteTokioSyncChannelConstructorPath : Path α → Option (Path α) :=
  rewriteChannelPath tokioChannelFnTargetFor

def rewriteTokioSyncChannelTypePath : Path α → Option (Path α) :=
  rewriteChannelPath tokioChannelTypeTargetFor

/-! ## Time and `select!` -/

def timeFnTargetFor (ident : Ident) : Option Ident :=
  if ident = "sleep" then some "sleep"
  else if ident = "timeout" then some "timeout"
  else if ident = "interval" then some "interval"
  else none

def timeTypeTargetFor (ident : Ident) : Option Ident :=
  if ident = "Sleep" then some "Sleep"
  else if ident = "Timeout" then some "Timeout"
  else if ident = "Interval" then some "Interval"
  else none

/-- Unlike the other call rewriters, this one also wants the function segment plain. -/
def rewriteTokioTimeFnPath (path : Path α) : Option (Path α) :=
  match path.segments with
  | [tokio, time, func] =>
      if tokio.ident != "tokio" || time.ident != "time" then none
      else if !tokio.arguments.isNone || !time.arguments.isNone || !func.arguments.isNone then none
      else (timeFnTargetFor func.ident).map fun target => rtPath [.plain "time", .plain target]
  | _ => none

def rewriteTokioTimeTypePath : Path α → Option (Path α) :=
  rewriteTypePath "tokio" "time" timeTypeTargetFor fun target arguments =>
    rtPath [.plain "time", ⟨target, arguments⟩]

def isTokioSelectMacroPath (path : Path α) : Bool := path.isPlain ["tokio", "select"]

/-! ## Recognized but not modeled -/

/-- Un-modeled primitives, in the order the markers are injected. -/
inductive Unmodeled where
  | condvar
  | atomic
  | channel
  | tokioSpawn
  | tokioTime
  | arcSwap
deriving DecidableEq, Repr

def Unmodeled.markerIdent : Unmodeled → Ident
  | .condvar => "CONDVAR"
  | .atomic => "ATOMIC"
  | .channel => "CHANNEL"
  | .tokioSpawn => "TOKIO_SPAWN"
  | .tokioTime => "TOKIO_TIME"
  | .arcSwap => "ARC_SWAP"

/-- Reads the first three segments only, so a trailing method such as `::now` is ignored. -/
def classifyTokioTimeUnmodeled (path : Path α) : Option Unmodeled :=
  match path.segments.take 3 with
  | [tokio, time, ident] =>
      if tokio.ident != "tokio" || time.ident != "time" then none
      else if !tokio.arguments.isNone || !time.arguments.isNone then none
      else if ["Instant", "sleep_until", "interval_at", "timeout_at", "advance", "pause", "resume"].contains
        ident.ident then some .tokioTime
      else none
  | _ => none

def classifyArcSwapUnmodeled (path : Path α) : Option Unmodeled :=
  match path.segments.head? with
  | some first =>
      if first.ident = "arc_swap"
        || ["ArcSwap", "ArcSwapOption", "ArcSwapAny", "ArcSwapWeak"].contains first.ident then some .arcSwap
      else none
  | none => none

def isTokioSpawnPath (path : Path α) : Bool :=
  path.isPlain ["tokio", "spawn"] || path.isPlain ["tokio", "task", "spawn"]

def isUnmodeledTokioSpawnPath (path : Path α) : Bool :=
  path.isPlain ["tokio", "task", "spawn_blocking"] || path.isPlain ["tokio", "task", "spawn_local"]

def isKnownAtomicType (ident : Ident) : Bool :=
  ["AtomicBool", "AtomicI8", "AtomicI16", "AtomicI32", "AtomicI64", "AtomicIsize", "AtomicU8", "AtomicU16",
    "AtomicU32", "AtomicU64", "AtomicUsize", "AtomicPtr"].contains ident

/-- The last three families are found by any segment of that name, anywhere in the path. -/
def classifyUnmodeled (path : Path α) : Option Unmodeled :=
  match classifyTokioTimeUnmodeled path with
  | some primitive => some primitive
  | none =>
      if isTokioSpawnPath path || isUnmodeledTokioSpawnPath path then some .tokioSpawn
      else match classifyArcSwapUnmodeled path with
        | some primitive => some primitive
        | none =>
            if path.idents.contains "Condvar" then some .condvar
            else if path.idents.contains "mpsc" then some .channel
            else if path.idents.any fun ident => ident == "atomic" || isKnownAtomicType ident then some .atomic
            else none

/-! ## Import aliases -/

/-- Binding name to canonical `tokio::…` segments. -/
abbrev Aliases := Ident → Option (List Ident)

def Aliases.empty : Aliases := fun _ => none

/-- The overlay wins on a name both tables bind. -/
def mergeAliases (base overlay : Aliases) : Aliases := fun binding => (overlay binding).or (base binding)

def insertTokioAlias (table : Aliases) (binding : Ident) (canonical : List Ident) : Aliases :=
  if canonical.head? = some "tokio" then Function.update table binding (some canonical) else table

mutual
/-- Record the leaf bindings of a use tree, below the segments `lead`. -/
def collectUseAliases : UseTree → List Ident → Aliases → Aliases
  | .path ident tree, lead, table => collectUseAliases tree (lead ++ [ident]) table
  | .name ident, lead, table =>
      if ident = "self" then
        match lead.getLast? with
        | some binding => insertTokioAlias table binding lead
        | none => table
      else insertTokioAlias table ident (lead ++ [ident])
  | .rename ident rename, lead, table => insertTokioAlias table rename (lead ++ [ident])
  | .group items, lead, table => collectGroupAliases items lead table
  | .glob, _, table => table

def collectGroupAliases : List UseTree → List Ident → Aliases → Aliases
  | [], _, table => table
  | item :: rest, lead, table => collectGroupAliases rest lead (collectUseAliases item lead table)
end

/-- The declared name of an item that can shadow an import of the same name. -/
def itemIdent : Item → Option Ident
  | .fn ident .. | .mod ident _ | .trait ident .. | .named _ ident _ => some ident
  | _ => none

def removeShadowedAliases (table : Aliases) (itemIdents : List Ident) : Aliases :=
  itemIdents.foldl (fun table ident => Function.update table ident none) table

/-- Only use items add to a scope's table. -/
def collectItemAliases (table : Aliases) : Item → Aliases
  | .use tree => collectUseAliases tree [] table
  | _ => table

def scanUseAliasesItems (items : List Item) : Aliases :=
  removeShadowedAliases (items.foldl collectItemAliases Aliases.empty) (items.filterMap itemIdent)

/-- The items among the statements of a block. -/
def Stmt.item? : Stmt → Option Item
  | .item inner => some inner
  | _ => none

/-- A body's statements are scanned like a module's items: only the item statements matter. -/
def scanUseAliasesStmts (stmts : List Stmt) : Aliases := scanUseAliasesItems (stmts.filterMap Stmt.item?)

/-- Expand the first segment through the alias table; its arguments move to the end of the expansion. -/
def canonicalize (aliases : Aliases) (path : Path α) : Option (Path α) :=
  match path.segments with
  | [] => none
  | first :: rest =>
      (aliases first.ident).map fun canonical =>
        { leadingColon := false
          segments := (canonical.dropLast.map .plain) ++
            (canonical.getLast?.map fun ident => ⟨ident, first.arguments⟩).toList ++ rest }

end Laplace.Model
