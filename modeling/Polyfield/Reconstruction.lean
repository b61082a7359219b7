import Polyfield.Cell.Cache
import Polyfield.Quantity

/-!
# Reconstruction of cell values

Values of a cell made from values on its vertices or dual faces.

* Vertex values are averaged with the dual volumes as weights.
* The fluxes through the dual faces of a cell give the vector `v` with
  `|c| v = Σ flux_e t_e`, where `t_e` is the edge vector of the edge `e`: for the fluxes of a
  constant vector this is the vector itself, as the dual faces `d_e` satisfy
  `Σ d_e ⊗ t_e = |c| I`.
-/

namespace Polyfield

variable {R : Type} [Scalar R]

/-- The sum of the values of some vertices, each times its weight: one sum for each of the
`stride` components. -/
def weightedVertexSum (values : List R) (stride : Nat) (weighted : List (Nat × R)) :
    Except Breach (List R) :=
  weighted.foldlM
    (fun acc (v, w) => do
      return addScaled w (← slice values (stride * v) (stride * (v + 1))) acc)
    (List.replicate stride 0)

namespace MeshTables

/-- Write the average of the vertex values over a cell, with its dual volumes as weights. -/
def averageVertices (m : MeshTables R) (c : Nat) (values : List R) (stride : Nat)
    (buf : Buffer R) : Except Breach (Buffer R) :=
  updateFirst stride
    (fun _ => do
      let acc ← weightedVertexSum values stride (← m.weightedVertices c)
      let scale := 1 / (← fetch m.cellVolumes c)
      return acc.map (· * scale))
    buf

/-- The vector of a cell with the given fluxes through its dual faces. -/
def vectorOfFluxes (m : MeshTables R) (c : Nat) (fluxes : List R) : Except Breach (Vec3 R) := do
  let acc ← ((← fetch m.cellEdges c).zip fluxes).foldlM
    (fun (acc : Vec3 R) (e, flux) => do
      let (a, b) ← m.edgePoints e
      return acc + flux • (b - a))
    0
  return acc / (← fetch m.cellVolumes c)

/-- Write the vector of a cell with the given fluxes through its dual faces. -/
def writeVectorOfFluxes (m : MeshTables R) (c : Nat) (fluxes : List R) (buf : Buffer R) :
    Except Breach (Buffer R) := do
  overwriteFirst (← m.vectorOfFluxes c fluxes).toList buf

end MeshTables

namespace CellCache

/-- Write the average of the vertex values over the cell, with its interpolation weights. -/
def averageVertices (cm : CellCache R) (values : List R) (stride : Nat) (buf : Buffer R) :
    Except Breach (Buffer R) := do
  cm.requires [.vertexGeometry]
  updateFirst stride
    (fun _ => weightedVertexSum values stride (cm.vertexIds.zip cm.vertexWeights)) buf

/-- The vector of the cell with the given fluxes through its dual faces. -/
def vectorOfFluxes (cm : CellCache R) (fluxes : List R) : Vec3 R :=
  total ((cm.edges.zip fluxes).map fun (edge, flux) => (flux * edge.measure) • edge.unit) /
    cm.volume

/-- Write the vector of the cell with the given fluxes through its dual faces. -/
def writeVectorOfFluxes (cm : CellCache R) (fluxes : List R) (buf : Buffer R) :
    Except Breach (Buffer R) := do
  cm.requires [.edgeGeometry]
  overwriteFirst (cm.vectorOfFluxes fluxes).toList buf

end CellCache

end Polyfield
