import Polyfield.Quantity
import Polyfield.Reconstruction
import Polyfield.Schedule
import Polyfield.Settings

/-!
# Bulk evaluation

A `BulkEvaluator` evaluates quantities for many entities of a mesh at once.  Entities are read
from a selection, and the result of each is written to the slot that the selection gives it.
Large selections are divided as the schedule of the evaluator says.
-/

namespace Polyfield

variable {R : Type} [Scalar R]

/-- What a bulk evaluation works with. -/
structure BulkEvaluator (R : Type) where
  mesh : MeshTables R
  settings : EvalSettings := .default
  /-- How evaluations that reach the threshold of the settings are divided. -/
  schedule : Schedule := .sequential

namespace BulkEvaluator

/-- Rewrite the slot of each selected entity. -/
def forEach (ev : BulkEvaluator R) (stride : Nat)
    (f : Nat → List R → Except Breach (List R)) (sel : Selection) (buf : Buffer R) :
    Except Breach (Buffer R) :=
  sel.parForEach stride ev.settings.parallelThreshold f ev.schedule.order buf

/-! ## Constants -/

/-- Write a constant for each selected entity. -/
def constant (ev : BulkEvaluator R) (v : Value R) (sel : Selection) (buf : Buffer R) :
    Except Breach (Buffer R) :=
  ev.forEach v.dim (fun _ slot => v.writeTo slot) sel buf

/-! ## Functions -/

/-- Evaluate a function batch by batch over the first slots of a buffer.  The entities are cut into
batches of `size`, the entries of their slots, on their own, into parts of `dim * size`; either may
end with a shorter one.  Batch `i` goes to part `i`. -/
def evaluateBatches {α : Type} (order : Nat → List Nat) (dim size : Nat)
    (evaluate : List α → Buffer R → Except Breach (Buffer R)) (entities : List α)
    (buf : Buffer R) : Except Breach (Buffer R) :=
  let batches := chunks size entities
  let total := dim * entities.length
  let parts := (total + dim * size - 1) / (dim * size)
  (order (min parts batches.length)).foldlM
    (fun out i => do
      let batch ← fetch batches i
      let start := dim * size * i
      updateSlot start (min (dim * size) (total - start)) (evaluate batch) out)
    buf

/-- Evaluate a function at the selected points of a list.  From the threshold on, a dense
selection is divided into batches of at least that many entities; a batch of `all` is evaluated
at points of its own, numbered from zero. -/
def functionAt (ev : BulkEvaluator R) (points : List (Vec3 R)) (f : SpaceTimeFunction R)
    (sel : Selection) (t : R) (buf : Buffer R) : Except Breach (Buffer R) := do
  let threshold := ev.settings.parallelThreshold
  if sel.length < threshold then f.evaluate t points sel buf
  else
    let size := max threshold 1
    match sel with
    | .all n => do
      Selection.requireSlots f.dim n buf
      let points ← slice points 0 n
      evaluateBatches ev.schedule.order f.dim size
        (fun batch => f.evaluate t batch (.all batch.length)) points buf
    | .compact ids => do
      Selection.requireSlots f.dim ids.length buf
      evaluateBatches ev.schedule.order f.dim size
        (fun batch => f.evaluate t points (.compact batch)) ids buf
    | .scattered ids => f.evaluate t points (.scattered ids) buf

/-- Evaluate a function at the centers of the selected cells. -/
def functionAtCells (ev : BulkEvaluator R) (f : SpaceTimeFunction R) (sel : Selection) (t : R)
    (buf : Buffer R) : Except Breach (Buffer R) :=
  ev.functionAt ev.mesh.cellCenters f sel t buf

/-- Evaluate a function at the selected vertices. -/
def functionAtVertices (ev : BulkEvaluator R) (f : SpaceTimeFunction R) (sel : Selection)
    (t : R) (buf : Buffer R) : Except Breach (Buffer R) :=
  ev.functionAt ev.mesh.vertexPoints f sel t buf

/-- Evaluate a function at the centers of the selected boundary faces. -/
def functionAtBoundaryFaces (ev : BulkEvaluator R) (f : SpaceTimeFunction R) (sel : Selection)
    (t : R) (buf : Buffer R) : Except Breach (Buffer R) :=
  ev.functionAt ev.mesh.boundaryFaceCenters f sel t buf

/-! ## Arrays -/

/-- The values of an array at the selected cells: those of the cells are copied, those of their
vertices averaged, and the fluxes through their dual faces made into vectors. -/
def arrayAtCells (ev : BulkEvaluator R) (a : ValueArray R) (sel : Selection) :
    Fill R Unit := do
  Fill.ofUpdate fun buf => do a.requireIndex; return buf
  match a.location with
  | .cell =>
    Fill.ofUpdate (ev.forEach a.stride (fun c slot => do copyTo (← a.entity c) slot) sel)
  | .vertex =>
    Fill.ofUpdate (ev.forEach a.stride (fun c => ev.mesh.averageVertices c a.values a.stride) sel)
  | .dualFaceByCell =>
    Fill.ofUpdate
      (ev.forEach 3 (fun c slot => do ev.mesh.writeVectorOfFluxes c (← a.cellBlock c) slot) sel)
  | s => refuse (.unsupportedSupport .arrayAtCells s)

/-- The values of a vertex array at the selected vertices. -/
def arrayAtVertices (ev : BulkEvaluator R) (a : ValueArray R) (sel : Selection) :
    Fill R Unit := do
  if a.location = .vertex then
    Fill.ofUpdate (ev.forEach a.stride (fun v slot => do copyTo (← a.entity v) slot) sel)
  else refuse (.unsupportedSupport .arrayAtVertices a.location)

/-! ## Fields -/

/-- The values of a vertex field at the selected vertices. -/
def fieldAtVertices (ev : BulkEvaluator R) (f : ValueField R) (sel : Selection) :
    Fill R Unit := do
  if f.location = .vertex then
    Fill.ofUpdate (ev.forEach f.dim (fun v slot => do copyTo (← f.entity v) slot) sel)
  else refuse (.unsupportedSupport .fieldAtVertices f.location)

/-- The values of a field at the selected cells: those of the cells are copied, those of their
vertices averaged. -/
def fieldAtCells (ev : BulkEvaluator R) (f : ValueField R) (sel : Selection) :
    Fill R Unit := do
  match f.location with
  | .cell =>
    Fill.ofUpdate (ev.forEach f.dim (fun c slot => do copyTo (← f.entity c) slot) sel)
  | .vertex =>
    Fill.ofUpdate (ev.forEach f.dim (fun c => ev.mesh.averageVertices c f.values f.dim) sel)
  | s => refuse (.unsupportedSupport .fieldAtCells s)

end BulkEvaluator

end Polyfield
