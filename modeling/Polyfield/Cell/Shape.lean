/-!
# Cell shapes

The shape of a cell, told from the numbers of its vertices, edges and faces.
-/

namespace Polyfield

/-- The topological type of a cell. -/
inductive CellShape
  | tetra
  | pyramid
  | prism
  | hexa
  | polyhedron
  deriving DecidableEq

namespace CellShape

/-- The name of a shape. -/
def name : CellShape → String
  | tetra => "Tetra"
  | pyramid => "Pyramid"
  | prism => "Prism"
  | hexa => "Hexa"
  | polyhedron => "Polyhedron"

/-- The shape with the given numbers of vertices, edges and faces. -/
def ofCounts : Nat → Nat → Nat → CellShape
  | 4, 6, 4 => tetra
  | 5, 8, 5 => pyramid
  | 6, 9, 5 => prism
  | 8, 12, 6 => hexa
  | _, _, _ => polyhedron

end CellShape

end Polyfield
