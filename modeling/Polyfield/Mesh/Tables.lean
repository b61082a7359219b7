import Polyfield.Vec3
import Polyfield.Buffer
import Polyfield.Mesh.Loop

/-!
# Mesh tables

`MeshTables` is all that evaluation reads about a mesh: points, measures and the connectivity
between vertices, edges, faces and cells, each kind of entity numbered from zero.  The lists of a
cell refer to each other by position: the dual volumes follow the vertices of the cell, the dual
faces its edges, and the face signs its faces.
-/

namespace Polyfield

variable {R : Type}

/-- The quantities of a mesh. -/
structure MeshTables (R : Type) where
  /-- The vertices. -/
  vertexPoints : List (Vec3 R)
  /-- The barycenters of the cells. -/
  cellCenters : List (Vec3 R)
  /-- The barycenters of the boundary faces, by boundary face number. -/
  boundaryFaceCenters : List (Vec3 R)
  /-- The faces on the boundary. -/
  boundaryFaces : List Nat
  /-- The volumes of the cells. -/
  cellVolumes : List R
  /-- The barycenters of the faces. -/
  faceCenters : List (Vec3 R)
  /-- The unit normals of the faces, each of one direction for all cells. -/
  faceNormals : List (Vec3 R)
  /-- The areas of the faces. -/
  faceAreas : List R
  /-- The endpoints of the edges; an edge is directed from the first to the second. -/
  edges : List Edge
  /-- The vertices of each cell. -/
  cellVertices : List (List Nat)
  /-- The edges of each cell. -/
  cellEdges : List (List Nat)
  /-- The faces of each cell. -/
  cellFaces : List (List Nat)
  /-- The edges of each face. -/
  faceEdges : List (List Nat)
  /-- The volumes of the parts of a cell that belong to its vertices. -/
  cellDualVolumes : List (List R)
  /-- The vector areas of the dual faces of a cell, each along its edge. -/
  cellDualFaces : List (List (Vec3 R))
  /-- The orientation of each face of a cell: `1` if its normal points out of the cell. -/
  cellFaceSigns : List (List Int)

namespace MeshTables

/-- The number of cells. -/
def cellCount (m : MeshTables R) : Nat := m.cellVolumes.length

/-- The number of vertices. -/
def vertexCount (m : MeshTables R) : Nat := m.vertexPoints.length

/-- The number of faces. -/
def faceCount (m : MeshTables R) : Nat := m.faceAreas.length

/-- The number of edges. -/
def edgeCount (m : MeshTables R) : Nat := m.edges.length

/-- The endpoints of an edge, as points. -/
def edgePoints (m : MeshTables R) (e : Nat) : Except Breach (Vec3 R × Vec3 R) := do
  let (a, b) ← fetch m.edges e
  return (← fetch m.vertexPoints a, ← fetch m.vertexPoints b)

/-- The vertices of a cell, each with the volume of its part of the cell. -/
def weightedVertices (m : MeshTables R) (c : Nat) : Except Breach (List (Nat × R)) := do
  return (← fetch m.cellVertices c).zip (← fetch m.cellDualVolumes c)

end MeshTables

end Polyfield
