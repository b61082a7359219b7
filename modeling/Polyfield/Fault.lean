import Polyfield.Support
import Polyfield.Quadrature.Level
import Polyfield.Cell.Capability

/-!
# Faults

An evaluation can stop in two ways.  A `Refusal` says that a quantity cannot be evaluated the way
it was asked for; it is an answer, and depends on the request alone.  A `Breach` says that the
caller broke a precondition, such as a buffer that is too short.  Routines that can only meet
breaches have results in `Except Breach`, those that can also refuse in `Except Fault`.
-/

namespace Polyfield

/-- How a quantity is provided. -/
inductive SourceKind
  | constant
  | function
  | array
  | field
  deriving DecidableEq

/-- The name of a kind, as messages write it. -/
def SourceKind.name : SourceKind → String
  | .constant => "Value"
  | .function => "Analytic"
  | .array => "Array"
  | .field => "Field"

/-- The operations that can refuse a request. -/
inductive Operation
  | evaluate
  | boundaryAverage
  | arrayAtCells
  | arrayAtVertices
  | vectorsAtVertices
  | fieldAtCells
  | fieldAtVertices
  | arrayInCell
  | fieldInCell
  | vectorArrayAtPoints
  | vectorFieldAtPoints
  | faceAverage
  | cellAverage
  | allAverages
  | faceFlux
  | tensorFlux
  | vertexFlux
  | triangleRule
  | tetraRule
  deriving DecidableEq

/-- The name of an operation, as messages write it. -/
def Operation.name : Operation → String
  | .evaluate => "evaluate"
  | .boundaryAverage => "avg_at_boundary_faces"
  | .arrayAtCells => "at_cells_by_array"
  | .arrayAtVertices => "at_vertices_by_array"
  | .vectorsAtVertices => "vector_at_all_vertices_by_array"
  | .fieldAtCells => "at_cells_by_field"
  | .fieldAtVertices => "at_vertices_by_field"
  | .arrayInCell => "cell_by_array"
  | .fieldInCell => "cell_by_field"
  | .vectorArrayAtPoints => "vector_at_points_by_array"
  | .vectorFieldAtPoints => "vector_at_points_by_field"
  | .faceAverage => "face_average"
  | .cellAverage => "cell_average"
  | .allAverages => "average_reduction"
  | .faceFlux => "face_flux"
  | .tensorFlux => "tensor_face_flux"
  | .vertexFlux => "vertex_flux"
  | .triangleRule => "triangle_rule"
  | .tetraRule => "tetra_rule"

/-- What can be wrong with the selection of a request. -/
inductive SelectionFlaw
  /-- Some vertex is left out. -/
  | missesVertices
  deriving DecidableEq

/-- The reason that messages give for a flaw. -/
def SelectionFlaw.reason : SelectionFlaw → String
  | .missesVertices => "every vertex must be evaluated"

/-- A request that an operation does not serve. -/
inductive Refusal
  /-- The values live on a support that the operation cannot handle. -/
  | unsupportedSupport (operation : Operation) (support : Support)
  /-- The operation cannot use quantities of this kind. -/
  | unsupportedKind (operation : Operation) (kind : SourceKind)
  /-- The operation has no quadrature of this level. -/
  | levelNotImplemented (operation : Operation) (level : Level)
  /-- The number of components does not fit the operation. -/
  | invalidDimension (operation : Operation) (dim : Nat)
  /-- The operation does not allow the selection. -/
  | invalidSelection (operation : Operation) (flaw : SelectionFlaw)
  deriving DecidableEq

/-- The text of a refusal. -/
def Refusal.message : Refusal → String
  | .unsupportedSupport op s => op.name ++ ": invalid support " ++ s.name ++ " for the input"
  | .unsupportedKind op k => op.name ++ ": cannot evaluate a definition by " ++ k.name
  | .levelNotImplemented op l => op.name ++ ": quadrature " ++ l.name ++ " is not implemented"
  | .invalidDimension op d =>
    op.name ++ ": invalid dimension " ++ toString d ++ " of the quantity"
  | .invalidSelection op flaw => op.name ++ ": invalid selection (" ++ flaw.reason ++ ")"

/-- A precondition that the caller broke. -/
inductive Breach
  /-- A cell of a new mesh has fewer than four faces. -/
  | tooFewFaces
  /-- A face of a new mesh has fewer than three vertices. -/
  | tooFewVertices
  /-- A cell cache lacks a group of quantities. -/
  | missingCapability (capability : Capability)
  /-- A face used as a triangle has another number of edges. -/
  | notTriangle (face : Nat)
  /-- An edge of a cell ends in a vertex that the cell does not have. -/
  | edgeVertexMissing
  /-- A face of a cell has an edge that the cell does not have. -/
  | faceEdgeMissing
  /-- The buffers for the integrals over a cell and its faces are too short. -/
  | shortIntegrals
  /-- The buffer for one integral is too short. -/
  | shortIntegral
  /-- The buffer has fewer entries than the cell has vertices. -/
  | shortVertexBuffer
  /-- A quadrature was asked for a function of too many components. -/
  | quadratureDimension
  /-- An array in blocks is read without its block index. -/
  | blockIndexMissing
  /-- An array on dual faces is evaluated without its block index. -/
  | dualFaceIndexMissing
  /-- A weighted sum was asked for without weights. -/
  | weightsMissing
  /-- The weights of a sum are not as many as its values. -/
  | weightCountMismatch
  /-- Values of no components were given for analysis. -/
  | strideNotPositive
  /-- The values given for analysis do not fill their last entity. -/
  | raggedValues
  /-- An entry outside a list is read or written. -/
  | outOfRange
  /-- Values are copied to a place of another length. -/
  | lengthMismatch
  /-- A buffer is divided into parts without entries. -/
  | emptyParts
  /-- A sum of signs of a new mesh does not fit into a byte. -/
  | signOverflow
  /-- A side of a loop of a new mesh has no edge. -/
  | edgeUnknown
  /-- A part of a dual face of a new mesh lies at an edge that its cell does not have. -/
  | cellEdgeMissing
  deriving DecidableEq

/-- The text of a breach; some have none. -/
def Breach.message? : Breach → Option String
  | .tooFewFaces => some "A cell needs at least four faces"
  | .tooFewVertices => some "A face needs at least three vertices"
  | .missingCapability k => some ("Cell mesh was not built with " ++ k.name)
  | .notTriangle f => some ("Face " ++ toString f ++ " is not a triangle")
  | .edgeVertexMissing => some "Edge vertex missing from its cell. The mesh is inconsistent"
  | .faceEdgeMissing => some "Face edge missing from its cell. The mesh is inconsistent"
  | .shortIntegrals => some "Output buffers too small for the integrals"
  | .shortIntegral => some "Output buffer too small for the integral"
  | .shortVertexBuffer => some "Output buffer too small for the cell vertices"
  | .quadratureDimension => some "Mismatched quadrature dimension"
  | .blockIndexMissing => some "array stored by cell blocks needs an index"
  | .dualFaceIndexMissing =>
    some "Dual face arrays need a cell block index, set with ArrayInput::with_index"
  | .weightsMissing => some "Weighted sums need weights"
  | .weightCountMismatch => some "Mismatched weight count"
  | .strideNotPositive => some "Stride must be positive"
  | .raggedValues => some "Array length is not a multiple of the stride"
  | .cellEdgeMissing => some "Edge missing from its cell. This is a bug in meshdef"
  | .outOfRange | .lengthMismatch | .emptyParts | .signOverflow | .edgeUnknown => none

/-- The two ways in which an evaluation can stop. -/
inductive Fault
  /-- The operation does not serve the request. -/
  | refused (refusal : Refusal)
  /-- The caller broke a precondition. -/
  | breached (breach : Breach)
  deriving DecidableEq

/-- A breach is a fault. -/
instance : MonadLift (Except Breach) (Except Fault) where
  monadLift
    | .ok a => .ok a
    | .error b => .error (.breached b)

/-- Refuse a request. -/
def refuse {α : Type} (r : Refusal) : Except Fault α := .error (.refused r)

end Polyfield
