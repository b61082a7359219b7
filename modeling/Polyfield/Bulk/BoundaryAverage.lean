import Polyfield.Bulk.Evaluator
import Polyfield.Cell.Average

/-!
# Averages over boundary faces

The mean of a quantity over each selected boundary face.  A face of three edges is integrated as
one triangle, any other face over the triangles between its edges and its center.
-/

namespace Polyfield

variable {R : Type} [Scalar R]

namespace MeshTables

/-- The triangle of a face with the given first two edges. -/
def faceTriangle (m : MeshTables R) (f e₀ e₁ : Nat) : Except Breach (Simplex R 3) := do
  let (a, b) ← fetch m.edges e₀
  let (c, d) ← fetch m.edges e₁
  let third := if c = a ∨ c = b then d else c
  return .triangle (← fetch m.vertexPoints a) (← fetch m.vertexPoints b)
    (← fetch m.vertexPoints third) (← fetch m.faceAreas f)

/-- The triangles between the given edges of a face and its center. -/
def faceFan (m : MeshTables R) (f : Nat) (edges : List Nat) :
    Except Breach (List (Simplex R 3)) := do
  let center ← fetch m.faceCenters f
  edges.mapM fun e => do
    let (a, b) ← m.edgePoints e
    return .triangle a b center (triangleArea a b center)

/-- The triangles that a face is divided into. -/
def facePieces (m : MeshTables R) (f : Nat) : Except Breach (List (Simplex R 3)) := do
  match ← fetch m.faceEdges f with
  | [e₀, e₁, _] => return [← m.faceTriangle f e₀ e₁]
  | edges => m.faceFan f edges

end MeshTables

namespace BulkEvaluator

/-- The mean of a function over a boundary face, written over its slot. -/
def averageFunctionOn (ev : BulkEvaluator R) (f : SpaceTimeFunction R) (t : R)
    (rule : SimplexRule R 3) (boundaryFace : Nat) (slot : Buffer R) :
    Except Breach (Buffer R) := do
  let face ← fetch ev.mesh.boundaryFaces boundaryFace
  let out ← rule.integrateAll t (← ev.mesh.facePieces face) f (slot.map fun _ => 0)
  return scale (1 / (← fetch ev.mesh.faceAreas face)) out

/-- The mean of a function over each selected boundary face. -/
def boundaryAverageOfFunction (ev : BulkEvaluator R) (f : SpaceTimeFunction R)
    (sel : Selection) (t : R) (level : Level) : Fill R Unit := do
  let rule ← SimplexRule.triangleFor level f.dim
  Fill.ofUpdate (ev.forEach f.dim (ev.averageFunctionOn f t rule) sel)

/-- The mean of a quantity over each selected boundary face, at the level of the settings. -/
def boundaryAverage (ev : BulkEvaluator R) (q : Quantity R) (sel : Selection) (t : R) :
    Fill R Unit :=
  match q.source with
  | .constant v => .ofUpdate (ev.constant v sel)
  | .function f => ev.boundaryAverageOfFunction f sel t ev.settings.quadrature
  | _ => do refuse (.unsupportedKind .boundaryAverage q.kind)

end BulkEvaluator

end Polyfield
