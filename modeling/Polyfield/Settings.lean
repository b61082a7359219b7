import Polyfield.Quadrature.Level

/-!
# Evaluation settings

The settings of bulk evaluations and how they are read from a configuration document.

* A record gives the settings by name, a list gives them by position; what is left out keeps its
  default, and names that are not settings are passed over.
* A level is given by its name, alone or as the only name of a record that holds nothing.
* The threshold is a natural number of at most 64 bits.
-/

namespace Polyfield

/-- Settings shared by bulk evaluations. -/
structure EvalSettings where
  /-- The level of evaluations that integrate, where the caller names none. -/
  quadrature : Level := .bary
  /-- Selections of at least this many entities are divided. -/
  parallelThreshold : Nat := 128
  deriving DecidableEq

namespace EvalSettings

/-- The settings used where nothing is said. -/
def default : EvalSettings := {}

/-- Replace the level. -/
def withQuadrature (s : EvalSettings) (l : Level) : EvalSettings := { s with quadrature := l }

/-- Replace the threshold. -/
def withParallelThreshold (s : EvalSettings) (n : Nat) : EvalSettings :=
  { s with parallelThreshold := n }

end EvalSettings

/-- A configuration document. -/
inductive Document
  | null
  | flag (b : Bool)
  | natural (n : Nat)
  /-- A number that is negative or not an integer. -/
  | number
  | text (s : String)
  | list (items : List Document)
  | record (fields : List (String × Document))

namespace Document

/-- A level, given by its name. -/
def level? : Document → Option Level
  | text s => Level.ofName? s
  | record [(s, null)] => Level.ofName? s
  | _ => none

/-- A threshold: a natural number of at most 64 bits. -/
def threshold? : Document → Option Nat
  | natural n => if n < UInt64.size then some n else none
  | _ => none

end Document

namespace EvalSettings

/-- Read one named setting. -/
def readField (s : EvalSettings) : String × Document → Option EvalSettings
  | ("quadrature", d) => d.level?.map s.withQuadrature
  | ("parallel_threshold", d) => d.threshold?.map s.withParallelThreshold
  | _ => some s

/-- The settings that a document describes, if it describes any. -/
def ofDocument? : Document → Option EvalSettings
  | .record fields => fields.foldlM readField default
  | .list items =>
    if items.length ≤ 2 then
      (["quadrature", "parallel_threshold"].zip items).foldlM readField default
    else none
  | _ => none

end EvalSettings

end Polyfield
