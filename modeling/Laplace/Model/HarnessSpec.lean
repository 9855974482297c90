import Mathlib.Data.List.Basic

/-! # Harness specifications

The thread programs that the probe builder writes, and the check that says whether two of them take the same two
resources in opposite orders. Declared resources, gates and the names of threads are not read by the check.
-/

namespace Laplace.Model.Dsl

/-- `GateId`, and below it `ResourceId`: a name. -/
structure GateId where
  name : String
deriving DecidableEq, Repr

structure ResourceId where
  name : String
deriving DecidableEq, Repr

inductive ThreadAction where
  | gate (id : GateId)
  | releaseGate (id : GateId)
  | acquire (resource : ResourceId)
  | release (resource : ResourceId)
  | finish
deriving DecidableEq, Repr

structure ThreadSpec where
  actions : List ThreadAction
deriving DecidableEq, Repr

structure HarnessSpec where
  threads : List ThreadSpec
deriving DecidableEq, Repr

/-- The two local lists of `held_acquisition_pairs`. -/
structure Extraction where
  held : List ResourceId := []
  pairs : List (ResourceId × ResourceId) := []
deriving DecidableEq, Repr

/-- One action: an acquisition is paired with all that is held, itself included if it is held already. -/
def Extraction.read (extraction : Extraction) : ThreadAction → Extraction
  | .acquire resource =>
    { pairs := extraction.pairs ++ extraction.held.map fun prior => (prior, resource)
      held := if resource ∈ extraction.held then extraction.held else extraction.held ++ [resource] }
  | .release resource => { extraction with held := extraction.held.filter (· ≠ resource) }
  | .gate _ | .releaseGate _ | .finish => extraction

def heldAcquisitionPairs (thread : ThreadSpec) : List (ResourceId × ResourceId) :=
  (thread.actions.foldl Extraction.read {}).pairs

def acquisitionPairsConflict (a b : ThreadSpec) : Bool :=
  (heldAcquisitionPairs a).any fun (first, second) =>
    (heldAcquisitionPairs b).any fun (otherFirst, otherSecond) => first == otherSecond && second == otherFirst

/-- The loops over `i` and over the `j` behind it. -/
def anyConflict : List ThreadSpec → Bool
  | [] => false
  | thread :: later => later.any (acquisitionPairsConflict thread) || anyConflict later

def HarnessSpec.detectsAbbaDeadlock (spec : HarnessSpec) : Bool := anyConflict spec.threads

end Laplace.Model.Dsl
