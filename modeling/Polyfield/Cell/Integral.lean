import Polyfield.Cell.Cache
import Polyfield.Quadrature.Rule

/-!
# Integrals over a cell and its faces

A face of three edges is one triangle; any other face is divided into the triangles between its
edges and its center.  A tetrahedron is integrated as a whole; any other cell is divided into the
tetrahedra between these triangles and the cell center.

* `facePieces` and `conePieces` list the triangles of a face and the tetrahedra over them;
* `integrateFace` and `integrateCell` add one integral to a buffer;
* `integrateCellAndFaces` adds the integrals over the cell and over each face in one pass.
-/

namespace Polyfield

variable {R : Type} [Scalar R]

namespace CellCache

/-! ## Pieces -/

/-- The triangle of a face with three edges. -/
def faceTriangle (cm : CellCache R) (f : Nat) : Except Breach (Simplex R 3) := do
  let (v₀, v₁, v₂) ← cm.triangleVertices f
  return .triangle (← fetch cm.vertexPoints v₀) (← fetch cm.vertexPoints v₁)
    (← fetch cm.vertexPoints v₂) (← fetch cm.faces f).measure

/-- The triangles between the edges of a face and its center. -/
def faceFan (cm : CellCache R) (f : Nat) : Except Breach (List (Simplex R 3)) := do
  let face ← fetch cm.faces f
  ((← cm.faceEdges f).zip (← cm.faceTriangleAreas f)).mapM fun (e, area) => do
    let (a, b) ← cm.edgePoints e
    return .triangle a b face.center area

/-- The triangles that a face is divided into. -/
def facePieces (cm : CellCache R) (f : Nat) : Except Breach (List (Simplex R 3)) := do
  if (← cm.faceEdges f).length = 3 then return [← cm.faceTriangle f] else cm.faceFan f

/-- The tetrahedron between a triangle and the cell center, given a third of its height. -/
def coneOver (cm : CellCache R) (thirdHeight : R) (s : Simplex R 3) : Simplex R 4 :=
  ⟨s.corners.push cm.center, thirdHeight * s.measure⟩

/-- The tetrahedra between the triangles of a face and the cell center. -/
def conePieces (cm : CellCache R) (f : Nat) : Except Breach (List (Simplex R 4)) := do
  let thirdHeight := (← fetch cm.faceHeights f) / (3 : Nat)
  return (← cm.facePieces f).map (cm.coneOver thirdHeight)

/-- A cell of four vertices as one tetrahedron. -/
def wholeTetra (cm : CellCache R) : Except Breach (Simplex R 4) := do
  return .tetra (← fetch cm.vertexPoints 0) (← fetch cm.vertexPoints 1)
    (← fetch cm.vertexPoints 2) (← fetch cm.vertexPoints 3) cm.volume

/-- The tetrahedra that a cell is divided into, face after face. -/
def cellPieces (cm : CellCache R) : Except Breach (List (Simplex R 4)) := do
  if cm.shape = .tetra then return [← cm.wholeTetra]
  else return (← (List.range cm.faceCount).mapM cm.conePieces).flatten

/-! ## Integrals -/

/-- What integrals over a face read. -/
def faceNeeds : List Capability :=
  [.vertexGeometry, .faceGeometry, .faceEdges, .faceTriangles, .edgeVertices]

/-- What integrals over the cell read. -/
def cellNeeds : List Capability := faceNeeds ++ [.faceHeights]

/-- Add the integral over a face to the first entries of a buffer. -/
def integrateFace (cm : CellCache R) (f : Nat) (t : R) (func : SpaceTimeFunction R)
    (rule : SimplexRule R 3) (buf : Buffer R) : Except Breach (Buffer R) := do
  cm.requires faceNeeds
  if buf.length < func.dim then throw .shortIntegral
  rule.integrateAll t (← cm.facePieces f) func buf

/-- Add the integral over the cell to the first entries of a buffer. -/
def integrateCell (cm : CellCache R) (t : R) (func : SpaceTimeFunction R)
    (rule : SimplexRule R 4) (buf : Buffer R) : Except Breach (Buffer R) := do
  cm.requires cellNeeds
  if buf.length < func.dim then throw .shortIntegral
  rule.integrateAll t (← cm.cellPieces) func buf

/-- The place of the integral over a face among the integrals over all faces. -/
def addFaceIntegral (t : R) (func : SpaceTimeFunction R) (rule : SimplexRule R 3) (f : Nat)
    (pieces : List (Simplex R 3)) (faceBuf : Buffer R) : Except Breach (Buffer R) :=
  updateSlot (func.dim * f) func.dim (rule.integrateAll t pieces func) faceBuf

/-- Add the integral over the cell to one buffer, and the integral over each face to its slot of
another one. -/
def integrateCellAndFaces (cm : CellCache R) (t : R) (func : SpaceTimeFunction R)
    (tetraRule : SimplexRule R 4) (triangleRule : SimplexRule R 3)
    (cellBuf faceBuf : Buffer R) : Except Breach (Buffer R × Buffer R) := do
  cm.requires cellNeeds
  if cellBuf.length < func.dim ∨ faceBuf.length < func.dim * cm.faceCount then
    throw .shortIntegrals
  if cm.shape = .tetra then
    let cellBuf ← tetraRule.integrate t (← cm.wholeTetra) func cellBuf
    let faceBuf ← (List.range cm.faceCount).foldlM
      (fun out f => do addFaceIntegral t func triangleRule f [← cm.faceTriangle f] out) faceBuf
    return (cellBuf, faceBuf)
  else
    (List.range cm.faceCount).foldlM
      (fun (cellOut, faceOut) f => do
        let triangles ← cm.facePieces f
        let cellOut ← tetraRule.integrateAll t (← cm.conePieces f) func cellOut
        return (cellOut, ← addFaceIntegral t func triangleRule f triangles faceOut))
      (cellBuf, faceBuf)

end CellCache

end Polyfield
