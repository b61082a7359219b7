import Polyfield.Mesh.Polyhedral

/-!
# Small meshes

A tetrahedron, a prism, and columns of unit cubes, of which the unit cube is the lowest.
-/

namespace Polyfield

variable {R : Type} [Scalar R]

namespace PolyhedralMesh

/-- The loops of the faces of a hexahedron with its bottom at vertices `v` to `v + 3` and its top
at `v + 4` to `v + 7`. -/
def hexahedron (v : Nat) : List Loop :=
  [[v, v + 3, v + 2, v + 1], [v + 4, v + 5, v + 6, v + 7], [v, v + 1, v + 5, v + 4],
    [v + 1, v + 2, v + 6, v + 5], [v + 2, v + 3, v + 7, v + 6], [v + 3, v, v + 4, v + 7]]

/-- The corners of the unit square at a height. -/
def squareAt (z : R) : List (Vec3 R) := [⟨0, 0, z⟩, ⟨1, 0, z⟩, ⟨1, 1, z⟩, ⟨0, 1, z⟩]

/-- The vertices of a column of `n` unit cubes. -/
def columnVertices (n : Nat) : List (Vec3 R) :=
  (List.range (n + 1)).flatMap fun k : Nat => squareAt (k : R)

/-- The cells of a column of `n` unit cubes. -/
def columnCells (n : Nat) : List (List Loop) :=
  (List.range n).map fun k => hexahedron (4 * k)

/-- `n` unit cubes on top of each other: cell `k` lies between the heights `k` and `k + 1`. -/
def column (n : Nat) : Except Breach (PolyhedralMesh R) :=
  build (columnVertices n) (columnCells n)

/-- The unit cube. -/
def cube : Except Breach (PolyhedralMesh R) := column 1

/-- The tetrahedron between the origin and the three unit points. -/
def tetrahedron : Except Breach (PolyhedralMesh R) :=
  build [0, ⟨1, 0, 0⟩, ⟨0, 1, 0⟩, ⟨0, 0, 1⟩] [[[0, 2, 1], [0, 1, 3], [0, 3, 2], [1, 2, 3]]]

/-- The prism of height one over the triangle between the origin and two unit points. -/
def prism : Except Breach (PolyhedralMesh R) :=
  build [0, ⟨1, 0, 0⟩, ⟨0, 1, 0⟩, ⟨0, 0, 1⟩, ⟨1, 0, 1⟩, ⟨0, 1, 1⟩]
    [[[0, 2, 1], [3, 4, 5], [0, 1, 4, 3], [1, 2, 5, 4], [2, 0, 3, 5]]]

end PolyhedralMesh

end Polyfield
