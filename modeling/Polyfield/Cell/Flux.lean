import Polyfield.Cell.Integral

/-!
# Fluxes through the faces of a cell

The flux of a vector or tensor quantity through a face, along the unit normal of the face and
whatever its orientation to the cell.  A function is evaluated

* at level `bary` at the cell center,
* at level `barySubdiv` at the centroid of each triangle between an edge and the face center,
* at the levels above with the triangle rule of the level on each of these triangles.

A flux can be split between the vertices of the face: each triangle is halved at the edge
midpoint, and either half belongs to the vertex that it touches.
-/

namespace Polyfield

variable {R : Type} [Scalar R]

namespace CellCache

/-! ## Flux through a face -/

/-- What fluxes over the triangles of a face read. -/
def fanNeeds : List Capability := [.edgeVertices, .faceEdges, .faceTriangles]

/-- The triangles between the edges of a face and its center, which comes first. -/
def centerFan (cm : CellCache R) (f : Nat) : Except Breach (List (Simplex R 3)) := do
  return (← cm.faceFan f).map fun s =>
    .triangle s.corners[2] s.corners[0] s.corners[1] s.measure

/-- The sum of the corners of a triangle, divided by three. -/
def centroid (corners : Vector (Vec3 R) 3) : Vec3 R :=
  (corners[0] + corners[1] + corners[2]) / ((3 : Nat) : R)

/-- The points at which a flux through a face evaluates a function of `dim` components, with the
factors of the values. -/
def fluxSamples (cm : CellCache R) (f dim : Nat) (level : Level) :
    Except Fault (List (Sample R)) := do
  cm.requires [.faceGeometry]
  let face ← fetch cm.faces f
  match level with
  | .bary => return [⟨face.measure, cm.center⟩]
  | .barySubdiv => do
    cm.requires fanNeeds
    return (← cm.centerFan f).map fun s => ⟨s.measure, centroid s.corners⟩
  | .higher | .highest => do
    cm.requires fanNeeds
    let rule ← SimplexRule.triangleFor level dim
    return (← cm.centerFan f).flatMap fun s =>
      (rule.samples s.corners).map fun p => ⟨p.weight * s.measure, p.point⟩

/-- The components of a function at a point; there may be nine of them at most. -/
def componentsAt (func : SpaceTimeFunction R) (t : R) (x : Vec3 R) : Except Breach (List R) :=
  if maxComponents < func.dim then .error .outOfRange
  else if func.dim = 0 then .error .emptyParts
  else .ok (func.components t x)

/-- The flux of a constant vector through a face. -/
def constantFlux (cm : CellCache R) (f : Nat) (u : Vec3 R) : Except Breach R := do
  cm.requires [.faceGeometry]
  let face ← fetch cm.faces f
  return face.measure * face.unit.dot u

/-- The flux of a vector function through a face. -/
def functionFlux (cm : CellCache R) (f : Nat) (t : R) (func : SpaceTimeFunction R)
    (level : Level) : Except Fault R := do
  let samples ← cm.fluxSamples f func.dim level
  let face ← fetch cm.faces f
  samples.foldlM
    (fun (flux : R) s => do
      let u ← Vec3.ofComponents (← componentsAt func t s.point)
      return flux + s.weight * face.unit.dot u)
    0

/-- The flux of a vector quantity through a face. -/
def faceFlux (cm : CellCache R) (q : Quantity R) (f : Nat) (t : R) (level : Level) :
    Except Fault R :=
  match q.source with
  | .constant (.vector u) => cm.constantFlux f u
  | .constant _ => refuse (.invalidDimension .faceFlux q.dim)
  | .function func =>
    if func.dim = 3 then cm.functionFlux f t func level
    else refuse (.invalidDimension .faceFlux q.dim)
  | _ => refuse (.unsupportedKind .faceFlux q.kind)

/-- The flux of a constant tensor through a face. -/
def constantTensorFlux (cm : CellCache R) (f : Nat) (m : Tensor R) :
    Except Breach (Vec3 R) := do
  cm.requires [.faceGeometry]
  let face ← fetch cm.faces f
  return face.measure • m.apply face.unit

/-- The flux of a tensor function through a face. -/
def functionTensorFlux (cm : CellCache R) (f : Nat) (t : R) (func : SpaceTimeFunction R)
    (level : Level) : Except Fault (Vec3 R) := do
  let samples ← cm.fluxSamples f func.dim level
  let face ← fetch cm.faces f
  samples.foldlM
    (fun (flux : Vec3 R) s => do
      let m ← Tensor.ofComponents (← componentsAt func t s.point)
      return flux + s.weight • m.apply face.unit)
    0

/-- The flux of a tensor quantity through a face: the integral of the tensor applied to the
normal. -/
def tensorFlux (cm : CellCache R) (q : Quantity R) (f : Nat) (t : R) (level : Level) :
    Except Fault (Vec3 R) :=
  match q.source with
  | .constant (.tensor m) => cm.constantTensorFlux f m
  | .constant _ => refuse (.invalidDimension .tensorFlux q.dim)
  | .function func =>
    if func.dim = 9 then cm.functionTensorFlux f t func level
    else refuse (.invalidDimension .tensorFlux q.dim)
  | _ => refuse (.unsupportedKind .tensorFlux q.kind)

/-! ## Flux split between vertices -/

/-- An edge of a face, with half of the area of its triangle. -/
structure FaceSide (R : Type) where
  /-- The local vertices at its ends. -/
  ends : Nat × Nat
  /-- The ends as points. -/
  first : Vec3 R
  second : Vec3 R
  /-- Half of the area of the triangle between the edge and the face center. -/
  halfArea : R

/-- The edges of a face in order. -/
def faceSides (cm : CellCache R) (f : Nat) : Except Breach (List (FaceSide R)) := do
  ((← cm.faceEdges f).zip (← cm.faceTriangleAreas f)).mapM fun (e, area) => do
    let ends ← fetch cm.edgeVertices e
    let (a, b) ← cm.edgePoints e
    return ⟨ends, a, b, Scalar.half * area⟩

/-- Add an amount to the entries of both ends of an edge. -/
def addToEnds (ends : Nat × Nat) (first second : R) (buf : Buffer R) :
    Except Breach (Buffer R) := do
  addAt ends.2 second (← addAt ends.1 first buf)

/-- Add the flux of a constant vector through a face to the entries of its vertices. -/
def constantVertexFlux (cm : CellCache R) (f : Nat) (u : Vec3 R) (buf : Buffer R) :
    Except Breach (Buffer R) := do
  cm.requires fanNeeds
  let face ← fetch cm.faces f
  let normalPart := face.unit.dot u
  (← cm.faceSides f).foldlM
    (fun out side => addToEnds side.ends (side.halfArea * normalPart)
      (side.halfArea * normalPart) out)
    buf

/-- The centroids of the two halves of the triangle between an edge and a face center. -/
def halfCentroids (side : FaceSide R) (faceCenter : Vec3 R) : List (Vec3 R) :=
  let x := Vec3.midpoint side.first side.second + faceCenter
  [(x + side.first) / ((3 : Nat) : R), (x + side.second) / ((3 : Nat) : R)]

/-- The vector of a function at the cell center, with zeros for components it does not have. -/
def vectorAtCenter (cm : CellCache R) (t : R) (func : SpaceTimeFunction R) :
    Except Breach (Vec3 R) := do
  Vec3.ofComponents (← func.evaluate t [cm.center] (.all 1) (List.replicate 3 0))

/-- The parts of a flux that go to the ends of an edge, from one evaluation on either half of its
triangle.  The values of both halves are written to one list of six numbers, of which either
vector is one half. -/
def subdividedShares (face : EntityGeometry R) (t : R) (func : SpaceTimeFunction R)
    (side : FaceSide R) : Except Breach (R × R) := do
  let values ← func.evaluate t (halfCentroids side face.center) (.all 2) (List.replicate 6 0)
  let first ← Vec3.ofComponents (values.take 3)
  let second ← Vec3.ofComponents (values.drop 3)
  return (side.halfArea * face.unit.dot first, side.halfArea * face.unit.dot second)

/-- Add the flux on one half of a triangle to the entry of a vertex, node by node of a rule. -/
def addHalfFlux (face : EntityGeometry R) (t : R) (func : SpaceTimeFunction R)
    (rule : SimplexRule R 3) (side : FaceSide R) (v : Nat) (x : Vec3 R) (buf : Buffer R) :
    Except Breach (Buffer R) := do
  let half := Simplex.triangle (Vec3.midpoint side.first side.second) face.center x side.halfArea
  (← rule.weightedValues t half.corners func).foldlM
    (fun out (w, value) => do
      let u ← Vec3.ofComponents value
      addAt v (w * half.measure * face.unit.dot u) out)
    buf

/-- Add the flux of a vector function through a face to the entries of its vertices. -/
def functionVertexFlux (cm : CellCache R) (f : Nat) (t : R) (func : SpaceTimeFunction R)
    (level : Level) : Fill R Unit :=
  match level with
  | .bary => .ofUpdate fun buf => do
    cm.requires fanNeeds
    let _ ← fetch cm.faces f
    cm.constantVertexFlux f (← cm.vectorAtCenter t func) buf
  | .barySubdiv => .ofUpdate fun buf => do
    cm.requires fanNeeds
    let face ← fetch cm.faces f
    (← cm.faceSides f).foldlM
      (fun out side => do
        let (first, second) ← subdividedShares face t func side
        addToEnds side.ends first second out)
      buf
  | .higher => .ofUpdate fun buf => do
    cm.requires fanNeeds
    let face ← fetch cm.faces f
    (← cm.faceSides f).foldlM
      (fun out side => do
        let rule := SimplexRule.triangle level
        let out ← addHalfFlux face t func rule side side.ends.1 side.first out
        addHalfFlux face t func rule side side.ends.2 side.second out)
      buf
  | .highest => do
    Fill.ofUpdate fun buf => do
      cm.requires fanNeeds
      let _ ← fetch cm.faces f
      return buf
    refuse (.levelNotImplemented .vertexFlux level)

/-- Add the flux of a vector quantity through a face to the entries of its vertices: entry `v` of
the buffer belongs to the local vertex `v`. -/
def vertexFlux (cm : CellCache R) (q : Quantity R) (f : Nat) (t : R) (level : Level) :
    Fill R Unit := do
  Fill.ofUpdate fun buf =>
    if buf.length < cm.vertexCount then throw .shortVertexBuffer else return buf
  match q.source with
  | .constant (.vector u) => Fill.ofUpdate (cm.constantVertexFlux f u)
  | .constant _ => refuse (.invalidDimension .vertexFlux q.dim)
  | .function func =>
    if func.dim = 3 then cm.functionVertexFlux f t func level
    else refuse (.invalidDimension .vertexFlux q.dim)
  | _ => refuse (.unsupportedKind .vertexFlux q.kind)

end CellCache

end Polyfield
