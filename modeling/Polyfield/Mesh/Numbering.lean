import Polyfield.Mesh.SparseRow

/-!
# Numbering of faces and edges

A mesh is described by the loops of the faces of its cells.  `Numbering.ofCells` numbers the
faces in the order in which their vertices are first seen together, and the edges in the order
in which the first loops of the faces walk along them.

`Numbering.signsFit` says whether bytes can hold the signs of a mesh with this numbering.
-/

namespace Polyfield

/-- The faces and edges of a list of cells. -/
structure Numbering where
  /-- For each face the first loop given for it. -/
  loops : List Loop
  /-- The edges, the smaller vertex first. -/
  edges : List Edge
  /-- For each cell its faces, as often and in the order in which they were listed. -/
  cellFaces : List (List Nat)

namespace Numbering

/-- The faces and edges of some cells, each given by the loops of its faces. -/
def ofCells (cells : List (List Loop)) : Numbering :=
  let loops := firstSeen Loop.key cells.flatten
  let keys := loops.map Loop.key
  { loops
    edges := firstSeen id ((loops.flatMap cyclicPairs).map Edge.ofSide)
    cellFaces := cells.map fun cell => cell.map fun l => keys.idxOf l.key }

/-- The number of an edge. -/
def edgeId (n : Numbering) (e : Edge) : Nat := n.edges.idxOf e

/-- Whether a face is listed exactly once among the cells. -/
def isListedOnce (n : Numbering) (f : Nat) : Bool := n.cellFaces.flatten.count f == 1

/-- The sides of a loop: the number of the edge, and its direction along the loop. -/
def walk (n : Numbering) (l : Loop) : List (Nat × Int) :=
  (cyclicPairs l).map fun side => (n.edgeId (Edge.ofSide side), Edge.walkSign side)

theorem walk_sign {n : Numbering} {l : Loop} {e : Nat × Int} (h : e ∈ n.walk l) :
    e.2 = 1 ∨ e.2 = -1 := by
  obtain ⟨side, -, rfl⟩ := List.mem_map.1 h
  exact Edge.walkSign_eq side

/-- Whether bytes can hold, for every loop, the directions along each of its edges while they are
added up, in the order of the row. -/
def walksFit (n : Numbering) : Bool := n.loops.all fun l => SparseRow.signsFit (n.walk l)

/-- Whether bytes can hold, for every cell, the number of its faces at each of its edges; a face
counts as often as the cell lists it. -/
def meetingsFit (n : Numbering) : Bool :=
  let loopEdges := n.loops.map Loop.edges
  n.cellFaces.all fun ids =>
    let meetings := ids.flatMap fun f => loopEdges.getD f []
    (firstSeen id meetings).all fun e => fitsByte (meetings.count e)

/-- Whether bytes can hold the signs of a mesh while they are added up.  The orientations of a face
need no test of their own: a cell that lists a face several times gives it the same orientation
each time, and meets it as often at each edge of the face
(`PolyhedralMesh.fitsByte_cellFaceSigns`). -/
def signsFit (n : Numbering) : Bool := n.walksFit && n.meetingsFit

end Numbering

end Polyfield
