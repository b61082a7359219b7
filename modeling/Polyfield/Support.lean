/-!
# Supports

The locations of a mesh at which values live.
-/

namespace Polyfield

/-- A location of the mesh where values can be attached. -/
inductive Support
  /-- The cells, through their centers. -/
  | cell
  /-- The vertices. -/
  | vertex
  /-- All faces, inside the mesh or on its boundary. -/
  | face
  /-- The faces on the boundary of the mesh. -/
  | boundaryFace
  /-- The dual faces cell by cell: one value for each edge of each cell, in the order of the
  cell's edges. -/
  | dualFaceByCell
  deriving DecidableEq

/-- The name of a support, as messages write it. -/
def Support.name : Support → String
  | .cell => "Cell"
  | .vertex => "Vertex"
  | .face => "Face"
  | .boundaryFace => "BoundaryFace"
  | .dualFaceByCell => "DualFaceByCell"

end Polyfield
