import Polyfield.Scalar
import Polyfield.Vec3
import Polyfield.Support
import Polyfield.Quadrature.Level
import Polyfield.Cell.Capability
import Polyfield.Fault
import Polyfield.Buffer
import Polyfield.Selection
import Polyfield.Schedule
import Polyfield.Quantity
import Polyfield.Settings
import Polyfield.BlockSum
import Polyfield.Statistics
import Polyfield.Sorting.Exchange
import Polyfield.Sorting.Heap
import Polyfield.Sorting.Introsort
import Polyfield.Mesh.Loop
import Polyfield.Mesh.SignSum
import Polyfield.Mesh.SparseRow
import Polyfield.Mesh.Numbering
import Polyfield.Mesh.Tables
import Polyfield.Mesh.Geometry
import Polyfield.Mesh.Polyhedral
import Polyfield.Mesh.Column
import Polyfield.Cell.Shape
import Polyfield.Cell.Cache
import Polyfield.Quadrature.Rule
import Polyfield.Reconstruction
import Polyfield.Cell.Integral
import Polyfield.Cell.Value
import Polyfield.Cell.Average
import Polyfield.Cell.Flux
import Polyfield.Bulk.Evaluator
import Polyfield.Bulk.BoundaryAverage
import Polyfield.Bulk.VertexInterpolation
import Polyfield.Bulk.Evaluate
import Polyfield.Proofs.ExactArithmetic
import Polyfield.Proofs.Hull
import Polyfield.Proofs.ConvexPolygon
import Polyfield.Proofs.ClosedSurface
import Polyfield.Proofs.Incidence
import Polyfield.Proofs.FirstOccurrences
import Polyfield.Proofs.MeshNumbering
import Polyfield.Proofs.OnePassNumbering
import Polyfield.Proofs.RegularCell
import Polyfield.Proofs.CacheFilling
import Polyfield.Proofs.CacheContents
import Polyfield.Proofs.DualFaces
import Polyfield.Proofs.TetrahedronCell
import Polyfield.Proofs.AffineQuadrature
import Polyfield.Proofs.Slots
import Polyfield.Proofs.CellPieces
import Polyfield.Proofs.PieceMoments
import Polyfield.Proofs.CellMeans
import Polyfield.Proofs.AffineAverages
import Polyfield.Proofs.DivergenceTheorem
import Polyfield.Proofs.SlotContents
import Polyfield.Proofs.EntityValues
import Polyfield.Proofs.Batches
import Polyfield.Proofs.BulkAddressing
import Polyfield.Proofs.SelectionFolds
import Polyfield.Proofs.BuiltCache
import Polyfield.Proofs.StrayEdges
import Polyfield.Proofs.LocalNumbering
import Polyfield.Proofs.SinglePass
import Polyfield.Proofs.QuadraticQuadrature
import Polyfield.Proofs.FluxSplitting
import Polyfield.Proofs.BoundaryAverages
import Polyfield.Proofs.VertexAverages
import Polyfield.Proofs.CellValues
import Polyfield.Proofs.DualVolumes
import Polyfield.Proofs.SharedFaces
import Polyfield.Proofs.InterpolatedVectors
import Polyfield.Proofs.CellCalls
import Polyfield.Proofs.RefusingSteps
import Polyfield.Proofs.CellRefusals
import Polyfield.Proofs.Refusals
import Polyfield.Proofs.PartialCaches
import Polyfield.Proofs.CapabilityChecks
import Polyfield.Proofs.CacheReuse
import Polyfield.Proofs.EdgeChains
import Polyfield.Proofs.OutwardFaces
import Polyfield.Proofs.SparseAssembly
import Polyfield.Proofs.MeshConstruction
import Polyfield.Proofs.MalformedInput
import Polyfield.Proofs.MovedGeometry
import Polyfield.Proofs.MovedMeshes
import Polyfield.Proofs.Deposits
import Polyfield.Proofs.AccumulatingCalls
import Polyfield.Proofs.BufferParts
import Polyfield.Proofs.PointValues
import Polyfield.Proofs.ConvexCombinations
import Polyfield.Proofs.EvaluationPoints
import Polyfield.Proofs.InsideCell
import Polyfield.Proofs.MonotoneAverages
import Polyfield.Proofs.TurnedLoops
import Polyfield.Proofs.RegivenLoops
import Polyfield.Proofs.LoopDirections
import Polyfield.Proofs.TensorFlux
import Polyfield.Proofs.BatchSplitting
import Polyfield.Proofs.BlockedSums
import Polyfield.Proofs.CoherentStatistics
import Polyfield.Proofs.PolynomialQuadrature
import Polyfield.Proofs.ColumnNumbering
import Polyfield.Proofs.ColumnMesh
import Polyfield.Proofs.ColumnGeometry
import Polyfield.Proofs.CenterFans
