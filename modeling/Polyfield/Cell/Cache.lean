import Polyfield.Cell.Shape
import Polyfield.Mesh.Geometry
import Polyfield.Mesh.Tables

/-!
# Cell caches

A `CellCache` holds the geometry and connectivity of one cell in local numbers: the positions of
its vertices, edges and faces in the lists of the cell.  Only the groups of quantities that its
`CapabilitySet` names are filled in; every routine that reads a group first checks with
`CellCache.requires` that the group is there.

`CellCache.resetFor` refills a cache for another cell: it forgets what the cache held and then adds
to its lists, group by group.  `CellCache.build` fills a new one.
-/

namespace Polyfield

variable {R : Type} [Scalar R]

/-- The quantities of one cell. -/
structure CellCache (R : Type) where
  /-- The groups of quantities that the cache holds. -/
  capabilities : CapabilitySet
  /-- The number of the cell in the mesh. -/
  cell : Nat
  /-- The topological type. -/
  shape : CellShape
  /-- The barycenter. -/
  center : Vec3 R
  /-- The volume. -/
  volume : R
  /-- The mesh numbers of the vertices. -/
  vertexIds : List Nat
  /-- The vertices as points. -/
  vertexPoints : List (Vec3 R)
  /-- The interpolation weight of each vertex: its dual volume over the cell volume. -/
  vertexWeights : List R
  /-- The mesh numbers of the edges. -/
  edgeIds : List Nat
  /-- The geometry of the edges. -/
  edges : List (EntityGeometry R)
  /-- The local vertices at the ends of each edge. -/
  edgeVertices : List (Nat × Nat)
  /-- The mesh numbers of the faces. -/
  faceIds : List Nat
  /-- The orientation of each face: `1` if its normal points out of the cell. -/
  faceSigns : List Int
  /-- The geometry of the faces. -/
  faces : List (EntityGeometry R)
  /-- The distance from the cell center to the plane of each face. -/
  faceHeights : List R
  /-- The start of the entries of each face in the next two lists, and their end. -/
  faceStarts : List Nat
  /-- The local edges of the faces, face after face. -/
  faceEdgeIds : List Nat
  /-- The area of the triangle between each of these edges and the center of its face. -/
  triangleAreas : List R

namespace CellCache

/-- A cache that was not filled yet. -/
def empty (ks : CapabilitySet) : CellCache R where
  capabilities := ks
  cell := 0
  shape := .polyhedron
  center := 0
  volume := 0
  vertexIds := []
  vertexPoints := []
  vertexWeights := []
  edgeIds := []
  edges := []
  edgeVertices := []
  faceIds := []
  faceSigns := []
  faces := []
  faceHeights := []
  faceStarts := []
  faceEdgeIds := []
  triangleAreas := []

/-! ## Reading -/

/-- The number of vertices. -/
def vertexCount (cm : CellCache R) : Nat := cm.vertexIds.length

/-- The number of edges. -/
def edgeCount (cm : CellCache R) : Nat := cm.edgeIds.length

/-- The number of faces. -/
def faceCount (cm : CellCache R) : Nat := cm.faceIds.length

/-- Whether the cache holds a group of quantities. -/
def has (cm : CellCache R) (k : Capability) : Bool := cm.capabilities.contains k

/-- Check that the cache holds some groups of quantities. -/
def requires (cm : CellCache R) : List Capability → Except Breach Unit
  | [] => .ok ()
  | k :: ks => if cm.has k then cm.requires ks else .error (.missingCapability k)

/-- The local edges of a face. -/
def faceEdges (cm : CellCache R) (f : Nat) : Except Breach (List Nat) := do
  slice cm.faceEdgeIds (← fetch cm.faceStarts f) (← fetch cm.faceStarts (f + 1))

/-- The areas of the triangles between the edges of a face and its center, edge by edge. -/
def faceTriangleAreas (cm : CellCache R) (f : Nat) : Except Breach (List R) := do
  slice cm.triangleAreas (← fetch cm.faceStarts f) (← fetch cm.faceStarts (f + 1))

/-- The ends of a local edge, as points. -/
def edgePoints (cm : CellCache R) (e : Nat) : Except Breach (Vec3 R × Vec3 R) := do
  let (a, b) ← fetch cm.edgeVertices e
  return (← fetch cm.vertexPoints a, ← fetch cm.vertexPoints b)

/-- The local vertices of a face with three edges: the ends of its first edge and the other end
of its second. -/
def triangleVertices (cm : CellCache R) (f : Nat) : Except Breach (Nat × Nat × Nat) := do
  match ← cm.faceEdges f with
  | [e₀, e₁, _] =>
    let (v₀, v₁) ← fetch cm.edgeVertices e₀
    let (a, b) ← fetch cm.edgeVertices e₁
    return (v₀, v₁, if a = v₀ ∨ a = v₁ then b else a)
  | _ => throw (.notTriangle f)

/-! ## Filling -/

/-- The position of a vertex in the list of the cell's vertices. -/
def localVertex (cm : CellCache R) (v : Nat) : Except Breach Nat :=
  match cm.vertexIds.idxOf? v with
  | some i => .ok i
  | none => .error .edgeVertexMissing

/-- The position of an edge in the list of the cell's edges. -/
def localEdge (cm : CellCache R) (e : Nat) : Except Breach Nat :=
  match cm.edgeIds.idxOf? e with
  | some i => .ok i
  | none => .error .faceEdgeMissing

/-- Forget all quantities but those of the cell as a whole. -/
def clear (cm : CellCache R) : CellCache R :=
  { cm with
    vertexIds := []
    vertexPoints := []
    vertexWeights := []
    edgeIds := []
    edges := []
    edgeVertices := []
    faceIds := []
    faceSigns := []
    faces := []
    faceHeights := []
    faceStarts := []
    faceEdgeIds := []
    triangleAreas := [] }

/-- Read what is kept about the cell as a whole. -/
def loadCell (cm : CellCache R) (m : MeshTables R) (c : Nat) : Except Breach (CellCache R) := do
  return { cm with
    cell := c
    center := ← fetch m.cellCenters c
    volume := ← fetch m.cellVolumes c
    shape := .ofCounts (← fetch m.cellVertices c).length (← fetch m.cellEdges c).length
      (← fetch m.cellFaces c).length }

/-- Read the vertices. -/
def loadVertexIds (cm : CellCache R) (m : MeshTables R) : Except Breach (CellCache R) := do
  return { cm with vertexIds := cm.vertexIds ++ (← fetch m.cellVertices cm.cell) }

/-- Read the points of the vertices and compute their weights. -/
def loadVertexGeometry (cm : CellCache R) (m : MeshTables R) :
    Except Breach (CellCache R) := do
  return { cm with
    vertexPoints := cm.vertexPoints ++ (← cm.vertexIds.mapM (fetch m.vertexPoints ·))
    vertexWeights := cm.vertexWeights ++
      (← fetch m.cellDualVolumes cm.cell).map (· * (1 / cm.volume)) }

/-- Read the edges. -/
def loadEdgeIds (cm : CellCache R) (m : MeshTables R) : Except Breach (CellCache R) := do
  return { cm with edgeIds := cm.edgeIds ++ (← fetch m.cellEdges cm.cell) }

/-- Find the ends of the edges among the vertices. -/
def loadEdgeVertices (cm : CellCache R) (m : MeshTables R) : Except Breach (CellCache R) := do
  let ends ← cm.edgeIds.mapM fun e => do
    let (a, b) ← fetch m.edges e
    return (← cm.localVertex a, ← cm.localVertex b)
  return { cm with edgeVertices := cm.edgeVertices ++ ends }

/-- Compute the geometry of the edges. -/
def loadEdgeGeometry (cm : CellCache R) (m : MeshTables R) : Except Breach (CellCache R) := do
  let edges ← cm.edgeIds.mapM fun e => do
    let (a, b) ← m.edgePoints e
    return EntityGeometry.ofSegment a b
  return { cm with edges := cm.edges ++ edges }

/-- Read the faces and their orientations. -/
def loadFaceIds (cm : CellCache R) (m : MeshTables R) : Except Breach (CellCache R) := do
  let ids := cm.faceIds ++ (← fetch m.cellFaces cm.cell)
  let signs ← (List.range ids.length).mapM fun k => do
    fetch (← fetch m.cellFaceSigns cm.cell) k
  return { cm with faceIds := ids, faceSigns := cm.faceSigns ++ signs }

/-- Read the geometry of the faces. -/
def loadFaceGeometry (cm : CellCache R) (m : MeshTables R) : Except Breach (CellCache R) := do
  let faces ← cm.faceIds.mapM fun f => do
    return EntityGeometry.mk (← fetch m.faceCenters f) (← fetch m.faceNormals f)
      (← fetch m.faceAreas f)
  return { cm with faces := cm.faces ++ faces }

/-- Compute the distances from the cell center to the face planes. -/
def loadFaceHeights (cm : CellCache R) : CellCache R :=
  { cm with
    faceHeights := cm.faceHeights ++ cm.faces.map fun face =>
      Scalar.abs (face.unit.dot (face.center - cm.center)) }

/-- The starts of consecutive parts of the given lengths, and the end of the last one. -/
def offsetsFrom (start : Nat) : List Nat → List Nat
  | [] => [start]
  | n :: ns => start :: offsetsFrom (start + n) ns

theorem cons_tail_offsetsFrom (start : Nat) (ns : List Nat) :
    start :: (offsetsFrom start ns).tail = offsetsFrom start ns := by
  cases ns <;> rfl

/-- Find the edges of the faces among the edges.  The entries of each face end where the list of
these edges ends after it. -/
def loadFaceEdges (cm : CellCache R) (m : MeshTables R) : Except Breach (CellCache R) := do
  let edges ← cm.faceIds.mapM fun f => do
    (← fetch m.faceEdges f).mapM cm.localEdge
  return { cm with
    faceStarts := cm.faceStarts ++
      0 :: (offsetsFrom cm.faceEdgeIds.length (edges.map List.length)).tail
    faceEdgeIds := cm.faceEdgeIds ++ edges.flatten }

/-- Compute the areas of the triangles between the edges of the faces and their centers. -/
def loadTriangleAreas (cm : CellCache R) : Except Breach (CellCache R) := do
  let areas ← (List.range cm.faceIds.length).mapM fun f => do
    let face ← fetch cm.faces f
    (← cm.faceEdges f).mapM fun e => do
      let (a, b) ← cm.edgePoints e
      return triangleArea a b face.center
  return { cm with triangleAreas := cm.triangleAreas ++ areas.flatten }

/-- Fill in one group of quantities, if the cache is to hold it. -/
def loadIf (cm : CellCache R) (k : Capability)
    (load : CellCache R → Except Breach (CellCache R)) : Except Breach (CellCache R) :=
  if cm.has k then load cm else .ok cm

/-- Refill a cache for a cell of a mesh. -/
def resetFor (cm : CellCache R) (m : MeshTables R) (c : Nat) : Except Breach (CellCache R) := do
  let cm ← cm.loadCell m c
  let cm := cm.clear
  let cm ← cm.loadIf .vertexIds (·.loadVertexIds m)
  let cm ← cm.loadIf .vertexGeometry (·.loadVertexGeometry m)
  let cm ← cm.loadIf .edgeIds (·.loadEdgeIds m)
  let cm ← cm.loadIf .edgeVertices (·.loadEdgeVertices m)
  let cm ← cm.loadIf .edgeGeometry (·.loadEdgeGeometry m)
  let cm ← cm.loadIf .faceIds (·.loadFaceIds m)
  let cm ← cm.loadIf .faceGeometry (·.loadFaceGeometry m)
  let cm ← cm.loadIf .faceHeights (fun cm => .ok cm.loadFaceHeights)
  let cm ← cm.loadIf .faceEdges (·.loadFaceEdges m)
  cm.loadIf .faceTriangles (·.loadTriangleAreas)

/-- Fill a new cache for a cell of a mesh. -/
def build (m : MeshTables R) (c : Nat) (ks : CapabilitySet) : Except Breach (CellCache R) :=
  (empty ks).resetFor m c

end CellCache

end Polyfield
