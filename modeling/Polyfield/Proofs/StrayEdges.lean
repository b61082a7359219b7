import Polyfield.Proofs.BuiltCache

/-!
# Stray edges

Building a cache with all capabilities from tables that are in range can fail in two ways: an edge
of the cell ends in a vertex that the cell does not have, or a face of the cell has an edge that
the cell does not have.  The first cause is looked for first.

* `MeshTables.InRange` : the tables of a cell have the entries that they name;
* `CellCache.localEnds_cases`, `CellCache.localFaceEdges_cases` : the two searches, which find what
  they look for or give their one cause;
* `CellCache.build_of_hasStrayEdge`, `CellCache.build_of_hasStrayFaceEdge` : how building fails;
* `CellCache.exists_build_eq_ok` : without stray edges it does not.
-/

namespace Polyfield

variable {R : Type}

namespace MeshTables

/-- The tables of a cell have the entries that they name.  Nothing is said about whether its edges
end in its vertices, or the edges of its faces are its edges. -/
structure InRange (m : MeshTables R) (c : Nat) : Prop where
  center_lt : c < m.cellCenters.length
  volume_lt : c < m.cellVolumes.length
  vertices_lt : c < m.cellVertices.length
  edges_lt : c < m.cellEdges.length
  faces_lt : c < m.cellFaces.length
  dualVolumes_lt : c < m.cellDualVolumes.length
  length_signs : (m.cellFaces.getD c []).length ≤ (m.cellFaceSigns.getD c []).length
  vertex_lt : ∀ v ∈ m.cellVertices.getD c [], v < m.vertexPoints.length
  edge_lt : ∀ e ∈ m.cellEdges.getD c [], e < m.edges.length
  face_lt : ∀ f ∈ m.cellFaces.getD c [],
    f < m.faceCenters.length ∧ f < m.faceNormals.length ∧ f < m.faceAreas.length ∧
      f < m.faceEdges.length

/-- An edge of the cell ends in a vertex that the cell does not have. -/
def HasStrayEdge (m : MeshTables R) (c : Nat) : Prop :=
  ∃ e ∈ m.cellEdges.getD c [],
    (m.ends e).1 ∉ m.cellVertices.getD c [] ∨ (m.ends e).2 ∉ m.cellVertices.getD c []

/-- A face of the cell has an edge that the cell does not have. -/
def HasStrayFaceEdge (m : MeshTables R) (c : Nat) : Prop :=
  ∃ f ∈ m.cellFaces.getD c [], ∃ e ∈ m.faceEdges.getD f [], e ∉ m.cellEdges.getD c []

variable {m : MeshTables R} {c : Nat}

theorem Consistent.inRange (h : m.Consistent c) : m.InRange c :=
  { h with length_signs := h.length_signs.ge }

theorem Consistent.not_hasStrayEdge (h : m.Consistent c) : ¬m.HasStrayEdge c := by
  rintro ⟨e, he, hstray⟩
  exact hstray.elim (· (h.ends_mem e he).1) (· (h.ends_mem e he).2)

theorem Consistent.not_hasStrayFaceEdge (h : m.Consistent c) : ¬m.HasStrayFaceEdge c := by
  rintro ⟨f, hf, e, he, hstray⟩
  exact hstray (h.faceEdges_mem f hf e he)

/-- Without stray edges the trimmed tables are consistent. -/
theorem InRange.consistent_trimmed (h : m.InRange c) (hedge : ¬m.HasStrayEdge c)
    (hface : ¬m.HasStrayFaceEdge c) : (m.trimmed c).Consistent c :=
  { h with
    signs_lt := by simp [trimmed]
    length_signs := (m.length_signs_trimmed c).2 h.length_signs
    ends_mem := fun e he => by
      by_contra hmem
      exact hedge ⟨e, he, not_and_or.1 hmem⟩
    faceEdges_mem := fun f hf e he => by
      by_contra hmem
      exact hface ⟨f, hf, e, he, hmem⟩ }

end MeshTables

/-! ## How building fails -/

namespace CellCache

variable [Scalar R] {m : MeshTables R} {c : Nat}

omit [Scalar R] in
theorem Group.filled {has : Bool} {filled leftOut : Prop} (hhas : has = true) (h : filled) :
    Group has filled leftOut :=
  ⟨fun _ => h, fun hnot => by simp [hhas] at hnot⟩

/-- What a cache with all capabilities holds when its vertices and edges have been read. -/
def listed (m : MeshTables R) (c : Nat) : CellCache R :=
  { empty .all with
    cell := c
    shape := .ofCounts (m.cellVertices.getD c []).length (m.cellEdges.getD c []).length
      (m.cellFaces.getD c []).length
    center := m.cellCenters.getD c 0
    volume := m.cellVolumes.getD c 0
    vertexIds := m.cellVertices.getD c []
    vertexPoints := m.pointsOfCell c
    vertexWeights := (m.cellDualVolumes.getD c []).map (· * (1 / m.cellVolumes.getD c 0))
    edgeIds := m.cellEdges.getD c [] }

/-- The steps that follow the reading of vertices and edges. -/
def connect (cm : CellCache R) (m : MeshTables R) : Except Breach (CellCache R) := do
  let cm ← cm.loadIf .edgeVertices (·.loadEdgeVertices m)
  let cm ← cm.loadIf .edgeGeometry (·.loadEdgeGeometry m)
  let cm ← cm.loadIf .faceIds (·.loadFaceIds m)
  let cm ← cm.loadIf .faceGeometry (·.loadFaceGeometry m)
  let cm ← cm.loadIf .faceHeights (fun cm => .ok cm.loadFaceHeights)
  let cm ← cm.loadIf .faceEdges (·.loadFaceEdges m)
  cm.loadIf .faceTriangles (·.loadTriangleAreas)

omit [Scalar R] in
theorem loadEdgeVertices_eq_error {cm : CellCache R} {b : Breach}
    (hhas : cm.has .edgeVertices = true) (h : cm.edgeIds.mapM (cm.localEnds m) = .error b) :
    cm.loadIf .edgeVertices (·.loadEdgeVertices m) = .error b := by
  rw [loadIf, if_pos hhas]
  exact bind_of_error h _

omit [Scalar R] in
theorem loadFaceEdges_eq_error {cm : CellCache R} {b : Breach} (hhas : cm.has .faceEdges = true)
    (h : cm.faceIds.mapM (cm.localFaceEdges m) = .error b) :
    cm.loadIf .faceEdges (·.loadFaceEdges m) = .error b := by
  rw [loadIf, if_pos hhas]
  exact bind_of_error h _

/-- Where the tables are in range, vertices and edges are read. -/
theorem build_all_eq_connect (h : m.InRange c) : build m c .all = (listed m c).connect m := by
  have hpoints : (m.cellVertices.getD c []).mapM (fetch m.vertexPoints ·) =
      .ok (m.pointsOfCell c) :=
    mapM_eq_map fun v hv => fetch_getD (h.vertex_lt v hv) 0
  refine (bind_of_ok (loadCell_eq_ok.2 ⟨_, fetch_getD h.center_lt 0, _, fetch_getD h.volume_lt 0,
    _, fetch_getD h.vertices_lt [], _, fetch_getD h.edges_lt [], _, fetch_getD h.faces_lt [],
    rfl⟩) _).trans ?_
  dsimp only [clear, empty]
  refine (bind_of_ok (loadVertexIds_eq_ok.2 ⟨_, .filled rfl (fetch_getD h.vertices_lt []),
    rfl⟩) _).trans ?_
  dsimp only
  refine (bind_of_ok (loadVertexGeometry_eq_ok.2 ⟨(m.pointsOfCell c, _), .filled rfl
    ⟨hpoints, _, fetch_getD h.dualVolumes_lt [], rfl⟩, rfl⟩) _).trans ?_
  dsimp only
  exact bind_of_ok (loadEdgeIds_eq_ok.2 ⟨_, .filled rfl (fetch_getD h.edges_lt []), rfl⟩) _

omit [Scalar R] in
theorem localVertex_eq_error {cm : CellCache R} {v : Nat} (hv : v ∉ cm.vertexIds) :
    cm.localVertex v = .error .edgeVertexMissing := by
  simp [localVertex, List.idxOf?_eq_none_iff.2 hv]

omit [Scalar R] in
theorem localVertex_of_mem {cm : CellCache R} {v : Nat} (hv : v ∈ cm.vertexIds) :
    cm.localVertex v = .ok (cm.vertexIds.idxOf v) := by
  simp [localVertex, idxOf?_eq_some_of_mem hv]

omit [Scalar R] in
theorem localEdge_eq_error {cm : CellCache R} {e : Nat} (he : e ∉ cm.edgeIds) :
    cm.localEdge e = .error .faceEdgeMissing := by
  simp [localEdge, List.idxOf?_eq_none_iff.2 he]

omit [Scalar R] in
theorem localEdge_of_mem {cm : CellCache R} {e : Nat} (he : e ∈ cm.edgeIds) :
    cm.localEdge e = .ok (cm.edgeIds.idxOf e) := by
  simp [localEdge, idxOf?_eq_some_of_mem he]

omit [Scalar R] in
/-- The ends of an edge are found among the vertices, or the one cause is given. -/
theorem localEnds_cases {cm : CellCache R} {e : Nat} (he : e < m.edges.length) :
    (((m.ends e).1 ∈ cm.vertexIds ∧ (m.ends e).2 ∈ cm.vertexIds) ∧
      cm.localEnds m e = .ok (cm.vertexIds.idxOf (m.ends e).1, cm.vertexIds.idxOf (m.ends e).2)) ∨
    (((m.ends e).1 ∉ cm.vertexIds ∨ (m.ends e).2 ∉ cm.vertexIds) ∧
      cm.localEnds m e = .error .edgeVertexMissing) := by
  have hends : cm.localEnds m e = (do
      return (← cm.localVertex (m.ends e).1, ← cm.localVertex (m.ends e).2)) := by
    rw [localEnds, fetch_getD he (0, 0), ok_bind]
    rfl
  rw [hends]
  by_cases h₁ : (m.ends e).1 ∈ cm.vertexIds
  · by_cases h₂ : (m.ends e).2 ∈ cm.vertexIds
    · exact .inl ⟨⟨h₁, h₂⟩, by rw [localVertex_of_mem h₁, localVertex_of_mem h₂]; rfl⟩
    · exact .inr ⟨.inr h₂, by rw [localVertex_of_mem h₁, localVertex_eq_error h₂]; rfl⟩
  · exact .inr ⟨.inl h₁, by rw [localVertex_eq_error h₁]; rfl⟩

omit [Scalar R] in
/-- The edges of a face are found among the edges, or the one cause is given. -/
theorem localFaceEdges_cases {cm : CellCache R} {f : Nat} (hf : f < m.faceEdges.length) :
    ((∀ e ∈ m.faceEdges.getD f [], e ∈ cm.edgeIds) ∧ ∃ es, cm.localFaceEdges m f = .ok es) ∨
    ((∃ e ∈ m.faceEdges.getD f [], e ∉ cm.edgeIds) ∧
      cm.localFaceEdges m f = .error .faceEdgeMissing) := by
  rw [localFaceEdges, fetch_getD hf [], ok_bind]
  by_cases h : ∃ e ∈ m.faceEdges.getD f [], e ∉ cm.edgeIds
  · obtain ⟨e, he, hstray⟩ := h
    refine .inr ⟨⟨e, he, hstray⟩, mapM_eq_error (fun e' _ => ?_) ⟨e, he, localEdge_eq_error hstray⟩⟩
    by_cases he' : e' ∈ cm.edgeIds
    · exact .inl ⟨_, localEdge_of_mem he'⟩
    · exact .inr (localEdge_eq_error he')
  · have hmem : ∀ e ∈ m.faceEdges.getD f [], e ∈ cm.edgeIds := by
      simpa only [not_exists, not_and, not_not] using h
    exact .inl ⟨hmem, _, mapM_eq_map fun e he => localEdge_of_mem (hmem e he)⟩

/-- **A stray edge is found.** -/
theorem build_of_hasStrayEdge (h : m.InRange c) (hstray : m.HasStrayEdge c) :
    build m c .all = .error .edgeVertexMissing := by
  obtain ⟨e, he, hmem⟩ := hstray
  have hends : (listed m c).edgeIds.mapM ((listed m c).localEnds m) =
      .error .edgeVertexMissing := by
    refine mapM_eq_error (fun e' he' => ?_) ⟨e, he, ?_⟩
    · exact (localEnds_cases (h.edge_lt e' he')).imp (fun hok => ⟨_, hok.2⟩) And.right
    · refine (localEnds_cases (h.edge_lt e he)).elim (fun hok => ?_) And.right
      exact absurd hok.1 (not_and_or.2 hmem)
  rw [build_all_eq_connect h]
  exact bind_of_error (loadEdgeVertices_eq_error rfl hends) _

/-- The edges of a cell have a geometry unless one is stray. -/
theorem edgeGeometry_of_inRange (h : m.InRange c) (hedge : ¬m.HasStrayEdge c) {e : Nat}
    (he : e ∈ m.cellEdges.getD c []) : edgeGeometry m e = .ok (m.segment e) := by
  have hmem : (m.ends e).1 ∈ m.cellVertices.getD c [] ∧
      (m.ends e).2 ∈ m.cellVertices.getD c [] := by
    by_contra hmem
    exact hedge ⟨e, he, not_and_or.1 hmem⟩
  rw [edgeGeometry, MeshTables.edgePoints_eq_ok
    ⟨h.edge_lt e he, h.vertex_lt _ hmem.1, h.vertex_lt _ hmem.2⟩]
  rfl

/-- **Without a stray edge, a stray edge of a face is found.** -/
theorem build_of_hasStrayFaceEdge (h : m.InRange c) (hedge : ¬m.HasStrayEdge c)
    (hstray : m.HasStrayFaceEdge c) : build m c .all = .error .faceEdgeMissing := by
  obtain ⟨f, hf, hmem⟩ := hstray
  have hends : ∀ e ∈ m.cellEdges.getD c [], ∃ ends, (listed m c).localEnds m e = .ok ends :=
    fun e he => (localEnds_cases (h.edge_lt e he)).elim (fun hok => ⟨_, hok.2⟩)
      fun hstray => absurd ⟨e, he, hstray.1⟩ hedge
  obtain ⟨ends, hends⟩ := exists_mapM_eq_ok hends
  have hedges : (m.cellEdges.getD c []).mapM (edgeGeometry m) =
      .ok ((m.cellEdges.getD c []).map m.segment) :=
    mapM_eq_map fun e he => edgeGeometry_of_inRange h hedge he
  have hfaces : (m.cellFaces.getD c []).mapM (faceGeometry m) =
      .ok ((m.cellFaces.getD c []).map m.face) := mapM_eq_map fun f hf => by
    obtain ⟨hcenter, hnormal, harea, -⟩ := h.face_lt f hf
    rw [faceGeometry, fetch_getD hcenter 0, fetch_getD hnormal 0, fetch_getD harea 0]
    rfl
  obtain ⟨signs, hsigns⟩ : ∃ signs, m.readSigns c (m.cellFaces.getD c []).length = .ok signs := by
    refine exists_mapM_eq_ok fun k hk => ?_
    have hk : k < (m.cellFaceSigns.getD c []).length :=
      Nat.lt_of_lt_of_le (List.mem_range.1 hk) h.length_signs
    have hc : c < m.cellFaceSigns.length := by
      by_contra hlt
      rw [List.getD_eq_default m.cellFaceSigns _ (by omega)] at hk
      simp at hk
    rw [fetch_getD hc [], ok_bind]
    exact ⟨_, fetch_of_lt hk⟩
  rw [build_all_eq_connect h, connect]
  refine (bind_of_ok (loadEdgeVertices_eq_ok.2 ⟨ends, .filled rfl hends, rfl⟩) _).trans ?_
  dsimp only [listed]
  refine (bind_of_ok (loadEdgeGeometry_eq_ok.2 ⟨_, .filled rfl hedges, rfl⟩) _).trans ?_
  dsimp only
  refine (bind_of_ok (loadFaceIds_eq_ok.2 ⟨(m.cellFaces.getD c [], signs), .filled rfl
    (by exact ⟨fetch_getD h.faces_lt [], hsigns⟩), rfl⟩) _).trans ?_
  dsimp only
  refine (bind_of_ok (loadFaceGeometry_eq_ok.2 ⟨_, .filled rfl hfaces, rfl⟩) _).trans ?_
  dsimp only
  refine (bind_of_ok (loadFaceHeights_eq_ok.2 ⟨_, .filled rfl rfl, rfl⟩) _).trans ?_
  dsimp only
  exact bind_of_error (loadFaceEdges_eq_error rfl
    (mapM_eq_error (fun f' hf' => (localFaceEdges_cases (h.face_lt f' hf').2.2.2).imp And.right
      And.right) ⟨f, hf, (localFaceEdges_cases (h.face_lt f hf).2.2.2).elim
        (fun hok => absurd hok.1 (by simpa using hmem)) And.right⟩)) _

/-- Without stray edges a cache is built. -/
theorem exists_build_eq_ok (h : m.InRange c) (hedge : ¬m.HasStrayEdge c)
    (hface : ¬m.HasStrayFaceEdge c) : ∃ cm, build m c .all = .ok cm :=
  ⟨_, build_all_eq_ok.2 ⟨h.consistent_trimmed hedge hface, rfl⟩⟩

end CellCache

end Polyfield
