import Polyfield.Bulk.VertexInterpolation

/-!
# Evaluation of any quantity

`BulkEvaluator.evaluate` evaluates a quantity at the entities of a support, whatever its source.

| source   | cells                   | vertices                | boundary faces | others  |
|----------|-------------------------|-------------------------|----------------|---------|
| constant | written                 | written                 | written        | written |
| function | at the centers          | at the vertices         | at the centers | refused |
| array    | copied or reconstructed | copied or interpolated  | refused        | refused |
| field    | copied or averaged      | copied                  | refused        | refused |
-/

namespace Polyfield

variable {R : Type} [Scalar R]

namespace BulkEvaluator

/-- Evaluate a quantity at the selected entities of a support. -/
def evaluate (ev : BulkEvaluator R) (q : Quantity R) (target : Support) (sel : Selection)
    (t : R) : Fill R Unit :=
  match q.source, target with
  | .constant v, _ => .ofUpdate (ev.constant v sel)
  | .function f, .cell => .ofUpdate (ev.functionAtCells f sel t)
  | .function f, .vertex => .ofUpdate (ev.functionAtVertices f sel t)
  | .function f, .boundaryFace => .ofUpdate (ev.functionAtBoundaryFaces f sel t)
  | .array a, .cell => ev.arrayAtCells a sel
  | .array a, .vertex =>
    match a.location with
    | .cell | .dualFaceByCell => ev.vectorsAtVertices a sel
    | _ => ev.arrayAtVertices a sel
  | .field f, .cell => ev.fieldAtCells f sel
  | .field f, .vertex => ev.fieldAtVertices f sel
  | _, s => do refuse (.unsupportedSupport .evaluate s)

end BulkEvaluator

end Polyfield
