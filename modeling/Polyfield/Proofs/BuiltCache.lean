import Polyfield.Proofs.CacheContents

/-!
# Caches that were built

A cache with all capabilities can be built from tables that are not consistent as a whole, but what
was read must have been.  Only the signs of the faces may be more than the faces; in
`MeshTables.trimmed` the rest of them is left out.

* `CellCache.resetFor_eq_build` : refilling a cache is building a new one;
* `CellCache.filled_trimmed` : the signs that are left out are not read;
* `CellCache.Filled.consistent` : tables from which a cache with all capabilities was filled are
  consistent once they are trimmed;
* `CellCache.build_all_eq_ok` : such a cache is built exactly from tables whose trimmed form is
  consistent, and is the cache of those tables.
-/

namespace Polyfield

theorem CapabilitySet.closed_all : CapabilitySet.all.Closed := closed_ofList Capability.all

variable {R : Type}

/-! ## Signs that are read -/

namespace MeshTables

/-- The tables with no more signs for the faces of a cell than the cell has faces. -/
def trimmed (m : MeshTables R) (c : Nat) : MeshTables R :=
  { m with
    cellFaceSigns := List.replicate (c + 1)
      ((m.cellFaceSigns.getD c []).take (m.cellFaces.getD c []).length) }

/-- The trimmed tables hold a sign for each face of a cell if there are enough. -/
theorem length_signs_trimmed (m : MeshTables R) (c : Nat) :
    ((m.trimmed c).cellFaceSigns.getD c []).length = (m.cellFaces.getD c []).length ↔
      (m.cellFaces.getD c []).length ≤ (m.cellFaceSigns.getD c []).length := by
  have hread : (m.trimmed c).cellFaceSigns.getD c [] =
      (m.cellFaceSigns.getD c []).take (m.cellFaces.getD c []).length := by
    simp [trimmed, List.getD]
  rw [hread, List.length_take]
  omega

/-- The signs of the first faces of a cell, face by face. -/
def readSigns (m : MeshTables R) (c count : Nat) : Except Breach (List Int) :=
  (List.range count).mapM fun k => do fetch (← fetch m.cellFaceSigns c) k

/-- The signs that are left out are not read. -/
theorem readSigns_trimmed (m : MeshTables R) {c count : Nat}
    (hcount : count = (m.cellFaces.getD c []).length)
    (hc : 0 < count → c < m.cellFaceSigns.length) :
    (m.trimmed c).readSigns c count = m.readSigns c count := by
  refine mapM_congr fun k hk => ?_
  have hk : k < count := List.mem_range.1 hk
  have hread : fetch (m.trimmed c).cellFaceSigns c =
      .ok ((m.cellFaceSigns.getD c []).take count) := by
    rw [fetch_eq_ok, hcount]
    simp [trimmed]
  rw [hread, fetch_getD (hc (by omega)) [], ok_bind, ok_bind, fetch, fetch,
    List.getElem?_take_of_lt hk]

/-- As many signs are read as there are faces. -/
theorem length_le_of_readSigns {m : MeshTables R} {c count : Nat} {signs : List Int}
    (h : m.readSigns c count = .ok signs) :
    count ≤ (m.cellFaceSigns.getD c []).length ∧ (0 < count → c < m.cellFaceSigns.length) := by
  rcases Nat.eq_zero_or_pos count with rfl | hpos
  · exact ⟨Nat.zero_le _, nofun⟩
  · obtain ⟨s, hs⟩ := exists_of_mapM_eq_ok h (List.mem_range.2 (Nat.sub_lt hpos Nat.one_pos))
    obtain ⟨all, hall, hs⟩ := bind_eq_ok.1 hs
    have hc := lt_of_fetch_eq_ok hall
    obtain rfl : m.cellFaceSigns.getD c [] = all := getD_of_fetch_eq_ok hall []
    have hlast := lt_of_fetch_eq_ok hs
    exact ⟨by omega, fun _ => hc⟩

end MeshTables

variable [Scalar R]

namespace CellCache

variable {m : MeshTables R} {c : Nat} {cm : CellCache R}

/-- **Refilling a cache is building a new one**: nothing of what it held is left. -/
theorem resetFor_eq_build (cm : CellCache R) (m : MeshTables R) (c : Nat) :
    cm.resetFor m c = build m c cm.capabilities := by
  simp only [build, resetFor, loadCell]
  cases fetch m.cellCenters c with
  | error b => rfl
  | ok center =>
    cases fetch m.cellVolumes c with
    | error b => rfl
    | ok volume =>
      cases fetch m.cellVertices c with
      | error b => rfl
      | ok vs =>
        cases fetch m.cellEdges c with
        | error b => rfl
        | ok es => cases fetch m.cellFaces c <;> rfl

/-- **A cache is filled from tables as it is from the trimmed ones.** -/
theorem filled_trimmed (hc : (m.cellFaces.getD c []).length ≤ (m.cellFaceSigns.getD c []).length) :
    cm.Filled (m.trimmed c) c ↔ cm.Filled m c := by
  have hpos : 0 < (m.cellFaces.getD c []).length → c < m.cellFaceSigns.length := by
    intro hpos
    by_contra hlt
    rw [List.getD_eq_default m.cellFaceSigns _ (by omega), List.length_nil] at hc
    omega
  have hsigns : fetch m.cellFaces c = .ok cm.faceIds →
      (m.trimmed c).readSigns c cm.faceIds.length = m.readSigns c cm.faceIds.length := by
    intro hfaces
    have hids := getD_of_fetch_eq_ok hfaces []
    exact m.readSigns_trimmed (by rw [hids]) (hids ▸ hpos)
  constructor
  · intro h
    exact { h with
      faceIds := ⟨fun hk => ⟨(h.faceIds.of_has hk).1,
        (hsigns (h.faceIds.of_has hk).1).symm.trans (h.faceIds.of_has hk).2⟩,
        h.faceIds.of_not_has⟩ }
  · intro h
    exact { h with
      faceIds := ⟨fun hk => ⟨(h.faceIds.of_has hk).1,
        (hsigns (h.faceIds.of_has hk).1).trans (h.faceIds.of_has hk).2⟩,
        h.faceIds.of_not_has⟩ }

omit [Scalar R] in
theorem localVertex_eq_ok {v i : Nat} (h : cm.localVertex v = .ok i) : v ∈ cm.vertexIds := by
  by_contra hv
  simp [localVertex, List.idxOf?_eq_none_iff.2 hv] at h

omit [Scalar R] in
theorem localEdge_eq_ok {e i : Nat} (h : cm.localEdge e = .ok i) : e ∈ cm.edgeIds := by
  by_contra he
  simp [localEdge, List.idxOf?_eq_none_iff.2 he] at h

/-- **Tables from which a cache with all capabilities was filled are consistent** once they are
trimmed. -/
theorem Filled.consistent (h : cm.Filled m c) (hks : cm.capabilities = .all) :
    (m.trimmed c).Consistent c := by
  have has : ∀ k, cm.has k = true := fun k => by rw [CellCache.has, hks, CapabilitySet.contains_all]
  have hvertexIds := h.vertexIds.of_has (has _)
  obtain ⟨hpoints, volumes, hvolumes, -⟩ := h.vertexGeometry.of_has (has _)
  have hedgeIds := h.edgeIds.of_has (has _)
  have hends := h.edgeVertices.of_has (has _)
  obtain ⟨hfaceIds, hsigns⟩ := h.faceIds.of_has (has _)
  have hfaces := h.faces.of_has (has _)
  obtain ⟨edges, hedges, -⟩ := h.faceEdges.of_has (has _)
  have hvs : m.cellVertices.getD c [] = cm.vertexIds := getD_of_fetch_eq_ok hvertexIds []
  have hes : m.cellEdges.getD c [] = cm.edgeIds := getD_of_fetch_eq_ok hedgeIds []
  have hfs : m.cellFaces.getD c [] = cm.faceIds := getD_of_fetch_eq_ok hfaceIds []
  obtain ⟨hlength, -⟩ := MeshTables.length_le_of_readSigns hsigns
  -- the reads of an edge and its ends
  have hedge : ∀ e ∈ m.cellEdges.getD c [], e < m.edges.length ∧
      (m.ends e).1 ∈ m.cellVertices.getD c [] ∧ (m.ends e).2 ∈ m.cellVertices.getD c [] := by
    intro e he
    obtain ⟨ends, hread⟩ := exists_of_mapM_eq_ok hends (hes ▸ he)
    obtain ⟨edge, hedge, hread⟩ := bind_eq_ok.1 hread
    obtain ⟨i, hi, hread⟩ := bind_eq_ok.1 hread
    obtain ⟨j, hj, -⟩ := bind_eq_ok.1 hread
    have heq : m.ends e = edge := getD_of_fetch_eq_ok hedge _
    rw [heq, hvs]
    exact ⟨lt_of_fetch_eq_ok hedge, localVertex_eq_ok hi, localVertex_eq_ok hj⟩
  -- the reads of a face and its edges
  have hface : ∀ f ∈ m.cellFaces.getD c [], (f < m.faceCenters.length ∧ f < m.faceNormals.length ∧
      f < m.faceAreas.length ∧ f < m.faceEdges.length) ∧
        ∀ e ∈ m.faceEdges.getD f [], e ∈ m.cellEdges.getD c [] := by
    intro f hf
    obtain ⟨face, hread⟩ := exists_of_mapM_eq_ok hfaces (hfs ▸ hf)
    obtain ⟨center, hcenter, hread⟩ := bind_eq_ok.1 hread
    obtain ⟨normal, hnormal, hread⟩ := bind_eq_ok.1 hread
    obtain ⟨area, harea, -⟩ := bind_eq_ok.1 hread
    obtain ⟨ids, hread⟩ := exists_of_mapM_eq_ok hedges (hfs ▸ hf)
    obtain ⟨faceEdges, hfaceEdges, hids⟩ := bind_eq_ok.1 hread
    refine ⟨⟨lt_of_fetch_eq_ok hcenter, lt_of_fetch_eq_ok hnormal, lt_of_fetch_eq_ok harea,
      lt_of_fetch_eq_ok hfaceEdges⟩, fun e he => ?_⟩
    rw [getD_of_fetch_eq_ok hfaceEdges] at he
    obtain ⟨i, hi⟩ := exists_of_mapM_eq_ok hids he
    exact hes ▸ localEdge_eq_ok hi
  exact {
    center_lt := lt_of_fetch_eq_ok h.center
    volume_lt := lt_of_fetch_eq_ok h.volume
    vertices_lt := lt_of_fetch_eq_ok hvertexIds
    edges_lt := lt_of_fetch_eq_ok hedgeIds
    faces_lt := lt_of_fetch_eq_ok hfaceIds
    dualVolumes_lt := lt_of_fetch_eq_ok hvolumes
    signs_lt := by simp [MeshTables.trimmed]
    length_signs := (m.length_signs_trimmed c).2 (hfs ▸ hlength)
    vertex_lt := fun v hv => by
      obtain ⟨x, hx⟩ := exists_of_mapM_eq_ok hpoints (hvs ▸ hv)
      exact lt_of_fetch_eq_ok hx
    edge_lt := fun e he => (hedge e he).1
    face_lt := fun f hf => (hface f hf).1
    ends_mem := fun e he => (hedge e he).2
    faceEdges_mem := fun f hf => (hface f hf).2 }

/-- **A cache with all capabilities is built exactly from tables whose trimmed form is
consistent**, and is the cache of those tables. -/
theorem build_all_eq_ok : build m c .all = .ok cm ↔
    (m.trimmed c).Consistent c ∧ ofTables (m.trimmed c) c .all = cm := by
  constructor
  · intro h
    obtain ⟨hks, hfilled⟩ := build_eq_ok.1 h
    have hconsistent := hfilled.consistent hks
    have htrimmed := build_eq_ok.2 ⟨hks,
      (filled_trimmed ((m.length_signs_trimmed c).1 hconsistent.length_signs)).2 hfilled⟩
    rw [build_eq_ofTables hconsistent CapabilitySet.closed_all] at htrimmed
    exact ⟨hconsistent, Except.ok.inj htrimmed⟩
  · rintro ⟨h, rfl⟩
    obtain ⟨hks, hfilled⟩ := build_eq_ok.1 (build_eq_ofTables h CapabilitySet.closed_all)
    exact build_eq_ok.2 ⟨hks,
      (filled_trimmed ((m.length_signs_trimmed c).1 h.length_signs)).1 hfilled⟩

end CellCache

end Polyfield
