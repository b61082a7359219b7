import Polyfield.Bulk.Evaluator

/-!
# Interpolation of vectors to the vertices

Vectors of the cells are interpolated to the vertices: each cell adds its vector to each of its
vertices, with the dual volume they share as weight, and the sums are divided by the sums of the
weights.  The sums can be gathered in several tasks and merged.
-/

namespace Polyfield

variable {R : Type} [Scalar R]

/-- Weighted sums of cell vectors, gathered at the vertices. -/
structure VertexSums (R : Type) where
  /-- The sum of the weights of each vertex. -/
  weights : List R
  /-- The weighted sum of the vectors of each vertex. -/
  vectors : List (Vec3 R)

namespace VertexSums

/-- No contributions to any of `n` vertices. -/
def empty (n : Nat) : VertexSums R := ⟨List.replicate n 0, List.replicate n 0⟩

/-- Add a weighted vector to a vertex. -/
def add (s : VertexSums R) (u : Vec3 R) (v : Nat) (w : R) : Except Breach (VertexSums R) := do
  let weight ← fetch s.weights v
  let vector ← fetch s.vectors v
  return ⟨s.weights.set v (weight + w), s.vectors.set v (vector + w • u)⟩

/-- The contributions of two tasks together. -/
def merge (s t : VertexSums R) : VertexSums R :=
  ⟨List.zipWith (· + ·) s.weights t.weights, List.zipWith (· + ·) s.vectors t.vectors⟩

/-- The vector of a vertex: the weighted mean, or zero without a positive weight. -/
def mean (s : VertexSums R) (v : Nat) : Except Breach (Vec3 R) := do
  let weight ← fetch s.weights v
  let vector ← fetch s.vectors v
  return if 0 < weight then vector / weight else 0

end VertexSums

namespace MeshTables

/-- The vector of a cell: its own values, or the vector of its fluxes. -/
def cellVector (m : MeshTables R) (a : ValueArray R) (c : Nat) : Except Breach (Vec3 R) := do
  match a.location with
  | .cell => Vec3.ofComponents (← a.entity c)
  | _ => m.vectorOfFluxes c (← a.cellBlock c)

/-- Add the contribution of a cell. -/
def addCell (m : MeshTables R) (a : ValueArray R) (s : VertexSums R) (c : Nat) :
    Except Breach (VertexSums R) := do
  let u ← m.cellVector a c
  (← m.weightedVertices c).foldlM (fun s (v, w) => s.add u v w) s

/-- The contributions of all cells of a reduction. -/
def gather (m : MeshTables R) (a : ValueArray R) : Reduction → Except Breach (VertexSums R)
  | .empty => .ok (.empty m.vertexCount)
  | .task cells => cells.foldlM (m.addCell a) (.empty m.vertexCount)
  | .merge l r => do return (← m.gather a l).merge (← m.gather a r)

end MeshTables

namespace BulkEvaluator

/-- How the contributions of the cells are gathered: in one task below the threshold. -/
def reduction (ev : BulkEvaluator R) : Reduction :=
  if ev.mesh.cellCount < ev.settings.parallelThreshold then
    .task (List.range ev.mesh.cellCount)
  else ev.schedule.reduction ev.mesh.cellCount

/-- Write the vectors gathered at all vertices. -/
def interpolateToVertices (ev : BulkEvaluator R) (a : ValueArray R) (buf : Buffer R) :
    Except Breach (Buffer R) := do
  a.requireIndex
  let sums ← ev.mesh.gather a ev.reduction
  ev.forEach 3 (fun v slot => do copyTo (← sums.mean v).toList slot)
    (.all ev.mesh.vertexCount) buf

/-- Interpolate an array of vectors on the cells, or of fluxes through the dual faces, to the
vertices.  All vertices have to be selected. -/
def vectorsAtVertices (ev : BulkEvaluator R) (a : ValueArray R) (sel : Selection) :
    Fill R Unit := do
  if sel ≠ .all ev.mesh.vertexCount then
    refuse (.invalidSelection .vectorsAtVertices .missesVertices)
  match a.location with
  | .cell =>
    if a.stride = 3 then Fill.ofUpdate (ev.interpolateToVertices a)
    else refuse (.invalidDimension .vectorsAtVertices a.stride)
  | .dualFaceByCell => Fill.ofUpdate (ev.interpolateToVertices a)
  | s => refuse (.unsupportedSupport .vectorsAtVertices s)

end BulkEvaluator

end Polyfield
