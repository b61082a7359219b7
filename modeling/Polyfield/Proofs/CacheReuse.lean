import Polyfield.Proofs.BuiltCache
import Polyfield.Proofs.SharedFaces

/-!
# Caches in use

One cache serves many cells.  It is refilled for one after the other, of any meshes, and each time
its lists are added to.  They are empty when that starts, so a refilled cache holds what a new one
holds, whatever was in it before.

* `CellCache.LeavesOut` : a cache holds nothing of the groups that it is not to hold;
* `CellCache.refills` : a cache that is refilled for some cells in turn;
* `CellCache.capabilities_of_refills` : all that is left of its past are its capabilities;
* `CellCache.resetFor_of_refills` : refilling a cache with a past is building a new one.
-/

namespace Polyfield

variable {R : Type}

namespace CellCache

/-- A cache holds nothing of the groups that it is not to hold. -/
structure LeavesOut (cm : CellCache R) : Prop where
  vertexIds : cm.has .vertexIds = false → cm.vertexIds = []
  vertexPoints : cm.has .vertexGeometry = false → cm.vertexPoints = []
  vertexWeights : cm.has .vertexGeometry = false → cm.vertexWeights = []
  edgeIds : cm.has .edgeIds = false → cm.edgeIds = []
  edges : cm.has .edgeGeometry = false → cm.edges = []
  edgeVertices : cm.has .edgeVertices = false → cm.edgeVertices = []
  faceIds : cm.has .faceIds = false → cm.faceIds = []
  faceSigns : cm.has .faceIds = false → cm.faceSigns = []
  faces : cm.has .faceGeometry = false → cm.faces = []
  faceHeights : cm.has .faceHeights = false → cm.faceHeights = []
  faceStarts : cm.has .faceEdges = false → cm.faceStarts = []
  faceEdgeIds : cm.has .faceEdges = false → cm.faceEdgeIds = []
  triangleAreas : cm.has .faceTriangles = false → cm.triangleAreas = []

variable [Scalar R] {cm out : CellCache R} {m : MeshTables R} {c : Nat}

/-! ## One cell -/

/-- A filled cache holds nothing of the groups that it is not to hold. -/
theorem Filled.leavesOut (h : cm.Filled m c) : cm.LeavesOut where
  vertexIds hk := h.vertexIds.of_not_has hk
  vertexPoints hk := (h.vertexGeometry.of_not_has hk).1
  vertexWeights hk := (h.vertexGeometry.of_not_has hk).2
  edgeIds hk := h.edgeIds.of_not_has hk
  edges hk := h.edges.of_not_has hk
  edgeVertices hk := h.edgeVertices.of_not_has hk
  faceIds hk := (h.faceIds.of_not_has hk).1
  faceSigns hk := (h.faceIds.of_not_has hk).2
  faces hk := h.faces.of_not_has hk
  faceHeights hk := h.faceHeights.of_not_has hk
  faceStarts hk := (h.faceEdges.of_not_has hk).1
  faceEdgeIds hk := (h.faceEdges.of_not_has hk).2
  triangleAreas hk := h.triangleAreas.of_not_has hk

/-- **A cache is refilled exactly if its fields can be filled**, and keeps its capabilities. -/
theorem resetFor_eq_ok :
    cm.resetFor m c = .ok out ↔ out.capabilities = cm.capabilities ∧ out.Filled m c := by
  rw [resetFor_eq_build, build_eq_ok]

/-! ## One cell after the other -/

/-- Refill a cache for some cells in turn, each given by the tables of its mesh and its number. -/
def refills (cm : CellCache R) (cells : List (MeshTables R × Nat)) :
    Except Breach (CellCache R) :=
  cells.foldlM (fun cm cell => cm.resetFor cell.1 cell.2) cm

/-- **All that is left of the past of a cache are its capabilities.** -/
theorem capabilities_of_refills {cells : List (MeshTables R × Nat)}
    (h : cm.refills cells = .ok out) : out.capabilities = cm.capabilities := by
  induction cells generalizing cm with
  | nil =>
    have hsame : cm = out := Except.ok.inj h
    rw [hsame]
  | cons cell cells ih =>
    rw [refills, List.foldlM_cons] at h
    obtain ⟨next, hnext, hrest⟩ := bind_eq_ok.1 h
    have hkept := (resetFor_eq_ok.1 hnext).1
    rw [ih hrest, hkept]

/-- **Refilling a cache with a past is building a new one.** -/
theorem resetFor_of_refills {cells : List (MeshTables R × Nat)} {used : CellCache R}
    (h : cm.refills cells = .ok used) (m : MeshTables R) (c : Nat) :
    used.resetFor m c = build m c cm.capabilities := by
  rw [resetFor_eq_build, capabilities_of_refills h]

/-- **Reuse leaves no trace.**  Whatever a cache holds, refilling it for a cell has the outcome of
building a new cache with its capabilities: both fail in the same way, or both end with the same
cache.  The capabilities are kept, and nothing is held of the other groups.  This goes on for as
long as the cache is refilled, for cells of any meshes. -/
theorem reuse_leaves_no_trace (cm : CellCache R) (m : MeshTables R) (c : Nat) :
    cm.resetFor m c = build m c cm.capabilities ∧
    (∀ out, cm.resetFor m c = .ok out →
      out.capabilities = cm.capabilities ∧ out.LeavesOut) ∧
    ∀ (cells : List (MeshTables R × Nat)) (used : CellCache R),
      cm.refills cells = .ok used → used.resetFor m c = build m c cm.capabilities := by
  refine ⟨resetFor_eq_build cm m c, fun out hout => ?_, fun cells used hused => ?_⟩
  · obtain ⟨hkept, hfilled⟩ := resetFor_eq_ok.1 hout
    exact ⟨hkept, hfilled.leavesOut⟩
  · exact resetFor_of_refills hused m c

end CellCache

/-- A cache without edge geometry and face heights, refilled for the two cells of one mesh and then
for the only cell of another. -/
theorem reuse_leaves_no_trace_twoMeshes :
    let ks := CapabilitySet.ofList [.faceTriangles]
    ∃ used out : CellCache ℝ,
      (CellCache.empty ks).refills [(TwoTetrahedra.mesh.toMeshTables, 0),
        (TwoTetrahedra.mesh.toMeshTables, 1)] = .ok used ∧
      used.resetFor Tetrahedron.unitMesh.toMeshTables 0 = .ok out ∧
      CellCache.build Tetrahedron.unitMesh.toMeshTables 0 ks = .ok out ∧
      out.capabilities = ks ∧ out.edges = [] ∧ out.faceHeights = [] := by
  intro ks
  have hks : ks.Closed := CapabilitySet.closed_ofList _
  have hcells : ∀ c, c < 2 → TwoTetrahedra.mesh.toMeshTables.Consistent c := fun c hc =>
    PolyhedralMesh.consistent_of_build TwoTetrahedra.build_eq_ok (by
      rw [TwoTetrahedra.mesh]
      simpa [PolyhedralMesh.assemble, MeshTables.cellCount, TwoTetrahedra.numbering] using hc)
  have hcell := PolyhedralMesh.consistent_of_build Tetrahedron.build_unitMesh
    Tetrahedron.regularCell_unitMesh.lt
  have hfirst := CellCache.build_eq_ofTables (hcells 0 (by decide)) hks
  have hsecond := CellCache.build_eq_ofTables (hcells 1 (by decide)) hks
  have hlast := CellCache.build_eq_ofTables hcell hks
  -- the first cache is a new one, and the second refills it
  have hused : (CellCache.empty ks).refills [(TwoTetrahedra.mesh.toMeshTables, 0),
      (TwoTetrahedra.mesh.toMeshTables, 1)] =
        .ok (CellCache.ofTables TwoTetrahedra.mesh.toMeshTables 1 ks) := by
    refine bind_eq_ok.2 ⟨_, hfirst, bind_eq_ok.2 ⟨_, ?_, rfl⟩⟩
    exact (CellCache.resetFor_eq_build _ _ 1).trans hsecond
  obtain ⟨hsame, hkept, -⟩ := CellCache.reuse_leaves_no_trace
    (CellCache.ofTables TwoTetrahedra.mesh.toMeshTables 1 ks) Tetrahedron.unitMesh.toMeshTables 0
  obtain ⟨hcapabilities, hout⟩ := hkept _ (hsame.trans hlast)
  exact ⟨_, _, hused, hsame.trans hlast, hlast, hcapabilities, hout.edges rfl, hout.faceHeights rfl⟩

end Polyfield
