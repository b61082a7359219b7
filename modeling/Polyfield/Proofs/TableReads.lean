import Mathlib.Data.List.GetD
import Polyfield.Mesh.Geometry
import Polyfield.Mesh.Tables
import Polyfield.Proofs.Success

/-!
# Reading mesh tables

The entries of mesh tables as total functions, and what has to hold of the tables of a cell for
all reads to succeed (`MeshTables.Consistent`).
-/

namespace Polyfield

/-- Reading an entry of a mapped list. -/
theorem getD_map_eq {α β : Type} {f : α → β} {a : α} {b : β} (h : f a = b) (xs : List α)
    (i : Nat) : (xs.map f).getD i b = f (xs.getD i a) := by
  rw [← h, List.getD_map]

/-- Reading an entry that is there from a mapped list. -/
theorem getD_map_of_lt {α β : Type} (f : α → β) {xs : List α} {i : Nat} (hi : i < xs.length)
    (a : α) (b : β) : (xs.map f).getD i b = f (xs.getD i a) := by
  rw [List.getD_eq_getElem _ _ (by simpa using hi), List.getElem_map, List.getD_eq_getElem _ _ hi]

namespace MeshTables

variable {R : Type} [Scalar R]

/-! ## Entries -/

/-- A vertex as a point. -/
def point (m : MeshTables R) (v : Nat) : Vec3 R := m.vertexPoints.getD v 0

omit [Scalar R] in
/-- The vertices at the ends of an edge. -/
def ends (m : MeshTables R) (e : Nat) : Edge := m.edges.getD e (0, 0)

/-- The vector along an edge. -/
def edgeVector (m : MeshTables R) (e : Nat) : Vec3 R :=
  m.point (m.ends e).2 - m.point (m.ends e).1

/-- The stored geometry of a face. -/
def face (m : MeshTables R) (f : Nat) : EntityGeometry R :=
  ⟨m.faceCenters.getD f 0, m.faceNormals.getD f 0, m.faceAreas.getD f 0⟩

/-- The vertices of a cell, as points. -/
def pointsOfCell (m : MeshTables R) (c : Nat) : List (Vec3 R) :=
  (m.cellVertices.getD c []).map m.point

/-- The height of a vertex above the plane of a face, along the normal. -/
def elevation (m : MeshTables R) (f v : Nat) : R :=
  (m.face f).unit.dot (m.point v - (m.face f).center)

/-- The orientation of a face of a cell; zero for other faces. -/
def faceSign (m : MeshTables R) (c f : Nat) : Int :=
  (((m.cellFaces.getD c []).zip (m.cellFaceSigns.getD c [])).lookup f).getD 0

/-- An edge is there, and so are the vertices at its ends. -/
def HasEnds (m : MeshTables R) (e : Nat) : Prop :=
  e < m.edges.length ∧ (m.ends e).1 < m.vertexPoints.length ∧
    (m.ends e).2 < m.vertexPoints.length

theorem edgePoints_eq_ok {m : MeshTables R} {e : Nat} (h : m.HasEnds e) :
    m.edgePoints e = .ok (m.point (m.ends e).1, m.point (m.ends e).2) := by
  obtain ⟨hedge, hfirst, hsecond⟩ := h
  rw [edgePoints, fetch_getD hedge (0, 0), ok_bind]
  show (do return (← fetch m.vertexPoints (m.ends e).1, ← fetch m.vertexPoints (m.ends e).2)) = _
  rw [fetch_getD hfirst 0, fetch_getD hsecond 0]
  rfl

/-! ## Consistent tables -/

/-- The tables of a cell have the entries that they name, and name each other's entries only. -/
structure Consistent (m : MeshTables R) (c : Nat) : Prop where
  center_lt : c < m.cellCenters.length
  volume_lt : c < m.cellVolumes.length
  vertices_lt : c < m.cellVertices.length
  edges_lt : c < m.cellEdges.length
  faces_lt : c < m.cellFaces.length
  dualVolumes_lt : c < m.cellDualVolumes.length
  signs_lt : c < m.cellFaceSigns.length
  length_signs : (m.cellFaceSigns.getD c []).length = (m.cellFaces.getD c []).length
  vertex_lt : ∀ v ∈ m.cellVertices.getD c [], v < m.vertexPoints.length
  edge_lt : ∀ e ∈ m.cellEdges.getD c [], e < m.edges.length
  face_lt : ∀ f ∈ m.cellFaces.getD c [],
    f < m.faceCenters.length ∧ f < m.faceNormals.length ∧ f < m.faceAreas.length ∧
      f < m.faceEdges.length
  /-- The ends of the edges of a cell are vertices of the cell. -/
  ends_mem : ∀ e ∈ m.cellEdges.getD c [],
    (m.ends e).1 ∈ m.cellVertices.getD c [] ∧ (m.ends e).2 ∈ m.cellVertices.getD c []
  /-- The edges of the faces of a cell are edges of the cell. -/
  faceEdges_mem : ∀ f ∈ m.cellFaces.getD c [], ∀ e ∈ m.faceEdges.getD f [],
    e ∈ m.cellEdges.getD c []

namespace Consistent

variable {m : MeshTables R} {c : Nat}

omit [Scalar R] in
theorem hasEnds (h : m.Consistent c) {e : Nat} (he : e ∈ m.cellEdges.getD c []) :
    m.HasEnds e := by
  have hends := h.ends_mem e he
  exact ⟨h.edge_lt e he, h.vertex_lt _ hends.1, h.vertex_lt _ hends.2⟩

theorem edgePoints (h : m.Consistent c) {e : Nat} (he : e ∈ m.cellEdges.getD c []) :
    m.edgePoints e = .ok (m.point (m.ends e).1, m.point (m.ends e).2) :=
  edgePoints_eq_ok (h.hasEnds he)

end Consistent

end MeshTables

end Polyfield
