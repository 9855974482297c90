import Mathlib.Data.Nat.Notation

/-! # The exploration depth and where it comes from

A session takes its depth from the licence in the home directory, else from the `laplace.toml` that the search finds,
else the built-in one. The search starts from `CARGO_MANIFEST_DIR` and climbs with `Path::parent`. Paths are Unix
paths as `Path::components` has them; the parsers of TOML, JSON and base64 are parameters.
-/

namespace Laplace.Model.Config

structure Path where
  absolute : Bool
  components : List String
deriving DecidableEq, Repr

namespace Path

/-- `None` for a root and for the empty path. -/
def parent (path : Path) : Option Path :=
  if path.components = [] then none else some { path with components := path.components.dropLast }

def join (path : Path) (name : String) : Path := { path with components := path.components ++ [name] }

end Path

/-- What a process sees of its surroundings. A file is known by the components of its absolute path. -/
structure Host where
  /-- `CARGO_MANIFEST_DIR`, when it is set and Unicode. -/
  manifestDir : Option Path
  currentDir : List String
  homeDir : Option Path
  present : List String → Bool
  readFile : List String → Option String

namespace Host

/-- The file that a path names, relative ones from the current directory. -/
def resolve (host : Host) (path : Path) : List String :=
  if path.absolute then path.components else host.currentDir ++ path.components

/-- `Path::exists` -/
def pathExists (host : Host) (path : Path) : Bool := host.present (host.resolve path)

def readToString (host : Host) (path : Path) : Option String := host.readFile (host.resolve path)

end Host

/-- The `[axiom]` section. -/
structure TomlAxiom where
  maxDepth : Option UInt32
  maxThreads : Option UInt32
  maxStarvationLimit : Option UInt32
  maxDanger : Option UInt32
  defaultSeed : Option UInt64
deriving DecidableEq, Repr

/-- What the parsers read from a text; a failure is `none`. -/
structure Parsers where
  toml : String → Option TomlAxiom
  /-- The `jwt` of `~/.laplace/config.json`. -/
  laplaceConfig : String → Option String
  base64 : String → Option (List UInt8)
  /-- The `limits.axiom_max_depth` of the claims. -/
  claims : List UInt8 → Option (Option UInt64)

structure ProjectConfig where
  maxDepth : Option UInt64
  maxThreads : Option UInt64
  maxStarvationLimit : Option UInt64
  maxDanger : Option UInt64
  defaultSeed : Option UInt64
deriving DecidableEq, Repr

/-! ## The search -/

/-- A candidate is returned when it exists; a missing parent gives no candidate. -/
def existing (host : Host) (candidate : Option Path) : Option Path := candidate.filter host.pathExists

def findLaplaceToml (host : Host) : Option Path :=
  let fromManifest := host.manifestDir.bind fun base =>
    existing host (some (base.join "laplace.toml"))
      <|> existing host ((base.parent.bind Path.parent).map (·.join "laplace.toml"))
      <|> existing host (((base.parent.bind Path.parent).bind Path.parent).map (·.join "laplace.toml"))
  fromManifest <|> existing host (some ⟨false, ["laplace.toml"]⟩)

/-- The rest of `load_project_config`, for the path that the search found. -/
def readProjectConfig (host : Host) (parsers : Parsers) (path : Path) : Option ProjectConfig := do
  let content ← host.readToString path
  let settings ← parsers.toml content
  return {
    maxDepth := settings.maxDepth.map UInt32.toUInt64
    maxThreads := settings.maxThreads.map UInt32.toUInt64
    maxStarvationLimit := settings.maxStarvationLimit.map UInt32.toUInt64
    maxDanger := settings.maxDanger.map UInt32.toUInt64
    defaultSeed := settings.defaultSeed }

def loadProjectConfig (host : Host) (parsers : Parsers) : Option ProjectConfig :=
  (findLaplaceToml host).bind (readProjectConfig host parsers)

def loadTomlMaxDepth (host : Host) (parsers : Parsers) : Option UInt64 :=
  (loadProjectConfig host parsers).bind (·.maxDepth)

/-! ## The depth of a session -/

def loadAxiomMaxDepth (host : Host) (parsers : Parsers) : Option UInt64 := do
  let home ← host.homeDir
  let json ← host.readToString ((home.join ".laplace").join "config.json")
  let jwt ← parsers.laplaceConfig json
  match jwt.splitOn "." with
  | [_, payload, _] => (← parsers.claims (← parsers.base64 payload))
  | _ => none

structure ProbeSessionConfig where
  maxDepth : UInt64
  writeArd : Bool
  outputDir : String
deriving DecidableEq, Repr

/-- A depth from a `laplace.toml` is also logged. -/
def ProbeSessionConfig.default (host : Host) (parsers : Parsers) : ProbeSessionConfig where
  maxDepth := ((loadAxiomMaxDepth host parsers).or (loadTomlMaxDepth host parsers)).getD 500
  writeArd := true
  outputDir := "."

end Laplace.Model.Config
