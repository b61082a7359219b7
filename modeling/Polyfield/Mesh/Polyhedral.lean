import Polyfield.Mesh.Geometry
import Polyfield.Mesh.Numbering
import Polyfield.Mesh.SparseRow
import Polyfield.Mesh.Tables

/-!
# Polyhedral meshes

`PolyhedralMesh.build` makes a mesh of convex polyhedra with planar faces from its vertices and,
for each cell, the loops of its faces.  A cell needs four faces, a face three vertices, and every
loop vertices of the mesh; and bytes have to hold the sums of signs that the connectivity is made
of.  Nothing else is checked.
-/

namespace Polyfield

variable {R : Type} [Scalar R]

/-- A mesh of polyhedra, with what its tables do not say. -/
structure PolyhedralMesh (R : Type) extends MeshTables R where
  /-- For each face, the directions of its edges relative to its loop. -/
  faceEdgeSigns : List (List Int)
  /-- For each face, whether it lies on the boundary: whether it is listed exactly once. -/
  boundaryFlags : List Bool

namespace PolyhedralMesh

/-- Whether a face lies on the boundary of the mesh. -/
def isBoundaryFace (m : PolyhedralMesh R) (f : Nat) : Bool := m.boundaryFlags.getD f false

/-! ## Faces -/

/-- The corners of a loop. -/
def corners (vertices : List (Vec3 R)) (l : Loop) : List (Vec3 R) :=
  l.map fun v => vertices.getD v 0

/-- The geometry of the faces. -/
def faceGeometries (vertices : List (Vec3 R)) (n : Numbering) : List (EntityGeometry R) :=
  n.loops.map fun l => Polygon.geometry (corners vertices l)

/-- The edges of a loop, each with the sum of its directions along the loop. -/
def faceRow (n : Numbering) (l : Loop) : SparseRow Int :=
  SparseRow.gather signTotal (n.walk l)

/-! ## Cells -/

/-- The geometry of the faces of a cell. -/
def facesOf (faces : List (EntityGeometry R)) (ids : List Nat) : List (EntityGeometry R) :=
  ids.map fun f => faces.getD f default

/-- The faces of a cell with their orientations. -/
def cellRow (faces : List (EntityGeometry R)) (ids : List Nat) : SparseRow Int :=
  SparseRow.gather signTotal (ids.map fun f =>
    (f, Cone.sign (Cone.apex (facesOf faces ids)) (faces.getD f default)))

/-- The parts of the dual quantities of a cell that lie at one edge of one face. -/
structure DualPart (R : Type) where
  /-- The number of the edge. -/
  edge : Nat
  /-- The ends of the edge. -/
  ends : Edge
  /-- The volume that belongs to either end. -/
  halfVolume : R
  /-- The part of the dual face of the edge. -/
  facePart : Vec3 R

/-- The dual part of a cell at an edge of a face, given the centers of the face and the cell. -/
def dualPart (vertices : List (Vec3 R)) (n : Numbering) (cellCenter faceCenter : Vec3 R)
    (e : Nat) : DualPart R :=
  let ends := n.edges.getD e (0, 0)
  let (a, b) := (vertices.getD ends.1 0, vertices.getD ends.2 0)
  ⟨e, ends, Dual.halfVolume a b faceCenter cellCenter, Dual.facePart a b faceCenter cellCenter⟩

/-- The dual parts of a cell: one for each edge of each of its faces. -/
def dualParts (vertices : List (Vec3 R)) (n : Numbering) (faces : List (EntityGeometry R))
    (faceEdges : List (List Nat)) (ids : List Nat) : List (DualPart R) :=
  let center := Cone.cellCenter (facesOf faces ids)
  ids.flatMap fun f => (faceEdges.getD f []).map
    (dualPart vertices n center (faces.getD f default).center)

/-- The vertices of a cell with their dual volumes. -/
def vertexRow (parts : List (DualPart R)) : SparseRow R :=
  SparseRow.gather total
    (parts.flatMap fun p => [(p.ends.1, p.halfVolume), (p.ends.2, p.halfVolume)])

/-- The edges of a cell with their dual faces. -/
def edgeRow (parts : List (DualPart R)) : SparseRow (Vec3 R) :=
  SparseRow.gather total (parts.map fun p => (p.edge, p.facePart))

/-! ## Construction -/

/-- The mesh of a numbering whose loops name given vertices only. -/
def assemble (vertices : List (Vec3 R)) (n : Numbering) : PolyhedralMesh R :=
  let faces := faceGeometries vertices n
  let faceRows := n.loops.map (faceRow n)
  let faceEdges := faceRows.map SparseRow.columns
  let parts := n.cellFaces.map (dualParts vertices n faces faceEdges)
  let vertexRows := parts.map vertexRow
  let edgeRows := parts.map edgeRow
  let cellRows := n.cellFaces.map (cellRow faces)
  let boundaryFaces := (List.range n.loops.length).filter n.isListedOnce
  { vertexPoints := vertices
    cellCenters := n.cellFaces.map fun ids => Cone.cellCenter (facesOf faces ids)
    boundaryFaceCenters := boundaryFaces.map fun f => (faces.getD f default).center
    boundaryFaces
    cellVolumes := n.cellFaces.map fun ids => Cone.cellVolume (facesOf faces ids)
    faceCenters := faces.map (·.center)
    faceNormals := faces.map (·.unit)
    faceAreas := faces.map (·.measure)
    edges := n.edges
    cellVertices := vertexRows.map SparseRow.columns
    cellEdges := edgeRows.map SparseRow.columns
    cellFaces := cellRows.map SparseRow.columns
    faceEdges
    cellDualVolumes := vertexRows.map SparseRow.values
    cellDualFaces := edgeRows.map SparseRow.values
    cellFaceSigns := cellRows.map SparseRow.values
    faceEdgeSigns := faceRows.map SparseRow.values
    boundaryFlags := (List.range n.loops.length).map n.isListedOnce }

/-- Check that a cell and its faces are large enough. -/
def checkCell (cell : List Loop) : Except Breach Unit := do
  if cell.length < 4 then throw .tooFewFaces
  cell.forM fun l => if l.length < 3 then throw .tooFewVertices else pure ()

/-- Check that all cells and faces are large enough, and then that the loops name vertices below
`vertexCount` only. -/
def checkCells (vertexCount : Nat) (cells : List (List Loop)) : Except Breach Unit := do
  cells.forM checkCell
  if cells.all fun cell => cell.all fun l => l.all (· < vertexCount) then return ()
  else throw .outOfRange

/-- Build a mesh from its vertices and, for each cell, the loops of its faces. -/
def build (vertices : List (Vec3 R)) (cells : List (List Loop)) :
    Except Breach (PolyhedralMesh R) := do
  checkCells vertices.length cells
  let n := Numbering.ofCells cells
  if n.signsFit then return assemble vertices n else throw .signOverflow

/-- A mesh is built exactly from cells that pass the checks and whose signs fit into bytes. -/
theorem build_eq_ok {vertices : List (Vec3 R)} {cells : List (List Loop)}
    {m : PolyhedralMesh R} :
    build vertices cells = .ok m ↔ checkCells vertices.length cells = .ok () ∧
      (Numbering.ofCells cells).signsFit = true ∧
      assemble vertices (Numbering.ofCells cells) = m := by
  unfold build
  cases checkCells vertices.length cells with
  | error b => simp [bind, Except.bind]
  | ok u =>
    by_cases h : (Numbering.ofCells cells).signsFit = true <;>
      simp [h, bind, Except.bind, pure, Except.pure, throw, throwThe, MonadExceptOf.throw]

/-- The sums of directions of a mesh fit into bytes. -/
theorem fitsByte_faceEdgeSigns {vertices : List (Vec3 R)} {cells : List (List Loop)}
    {m : PolyhedralMesh R} (h : build vertices cells = .ok m) {signs : List Int}
    (hsigns : signs ∈ m.faceEdgeSigns) {s : Int} (hs : s ∈ signs) : fitsByte s = true := by
  obtain ⟨-, hfit, rfl⟩ := build_eq_ok.1 h
  simp only [assemble, List.map_map, List.mem_map] at hsigns
  obtain ⟨l, hl, rfl⟩ := hsigns
  exact SparseRow.fitsByte_of_signsFit (fun _ he => Numbering.walk_sign he)
    (List.all_eq_true.1 (Bool.and_eq_true_iff.1 hfit).1 l hl) hs

end PolyhedralMesh

end Polyfield
