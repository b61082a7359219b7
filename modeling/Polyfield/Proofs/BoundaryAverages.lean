import Polyfield.Proofs.BuiltCache
import Polyfield.Proofs.BulkAddressing
import Polyfield.Proofs.CellMeans

/-!
# Averages over boundary faces

Bulk evaluation divides a boundary face into triangles with the edges and vertices of the mesh, a
cell does so with those of its cache.  Both find the same triangles in the same order, so that both
averages are the same in any arithmetic.

* `MeshTables.Consistent.facePieces` : the triangles that bulk evaluation finds;
* `PolyhedralMesh.exists_cell_of_mem_boundaryFaces` : a boundary face belongs to some cell, hence
  all boundary faces have means;
* `CellCache.boundary_averages` : bulk evaluation puts the average of the cell into the slots of
  the boundary face.
-/

namespace Polyfield

variable {R : Type} [Scalar R]

/-! ## Triangles of a face -/

namespace MeshTables.Consistent

variable {m : MeshTables R} {c f : Nat}

theorem fetch_point (h : m.Consistent c) {v : Nat} (hv : v ∈ m.cellVertices.getD c []) :
    fetch m.vertexPoints v = .ok (m.point v) :=
  fetch_getD (h.vertex_lt v hv) 0

omit [Scalar R] in
theorem fetch_edge (h : m.Consistent c) {e : Nat} (he : e ∈ m.cellEdges.getD c []) :
    fetch m.edges e = .ok (m.ends e) :=
  fetch_getD (h.edge_lt e he) (0, 0)

theorem fetch_area (h : m.Consistent c) (hf : f ∈ m.cellFaces.getD c []) :
    fetch m.faceAreas f = .ok (m.face f).measure :=
  fetch_getD (h.face_lt f hf).2.2.1 0

/-- The triangle of three edges, by the vertices that the first two of them join. -/
theorem faceTriangle (h : m.Consistent c) (hf : f ∈ m.cellFaces.getD c []) {e₀ e₁ : Nat}
    (h₀ : e₀ ∈ m.cellEdges.getD c []) (h₁ : e₁ ∈ m.cellEdges.getD c []) :
    m.faceTriangle f e₀ e₁ = .ok (m.triangle f e₀ e₁) := by
  have hends := h.ends_mem e₀ h₀
  have hthird := MeshTables.thirdVertex_mem h h₁ e₀
  rw [MeshTables.faceTriangle, h.fetch_edge h₀, ok_bind, h.fetch_edge h₁]
  show (do
    return Simplex.triangle (← fetch m.vertexPoints (m.ends e₀).1)
      (← fetch m.vertexPoints (m.ends e₀).2) (← fetch m.vertexPoints (m.thirdVertex e₀ e₁))
      (← fetch m.faceAreas f)) = _
  rw [h.fetch_point hends.1, h.fetch_point hends.2, h.fetch_point hthird, h.fetch_area hf]
  rfl

theorem faceFan (h : m.Consistent c) (hf : f ∈ m.cellFaces.getD c []) :
    m.faceFan f (m.faceEdges.getD f []) = .ok (m.fan f) := by
  have hcenter : fetch m.faceCenters f = .ok (m.face f).center := fetch_getD (h.face_lt f hf).1 0
  rw [MeshTables.faceFan, hcenter, ok_bind]
  refine mapM_eq_map fun e he => ?_
  rw [h.edgePoints (h.faceEdges_mem f hf e he)]
  rfl

/-- **The triangles of a face of a cell**, found without the cell. -/
theorem facePieces (h : m.Consistent c) (hf : f ∈ m.cellFaces.getD c []) :
    m.facePieces f = .ok (m.triangles f) := by
  have hmem := h.faceEdges_mem f hf
  have hfan := h.faceFan hf
  rw [MeshTables.facePieces, fetch_getD (h.face_lt f hf).2.2.2 [], ok_bind]
  by_cases hlen : (m.faceEdges.getD f []).length = 3
  · obtain ⟨e₀, e₁, e₂, hedges⟩ := List.length_eq_three.1 hlen
    rw [hedges] at hmem
    rw [MeshTables.triangles_of_three hedges, hedges]
    show (do return [← m.faceTriangle f e₀ e₁]) = _
    rw [h.faceTriangle hf (hmem e₀ (by simp)) (hmem e₁ (by simp))]
    rfl
  · rw [MeshTables.triangles_of_length_ne hlen, ← hfan]
    split
    · next hedges =>
      rw [hedges] at hlen
      exact absurd rfl hlen
    · rfl

/-- The mean over a boundary face of a cell. -/
theorem boundaryMean (h : m.Consistent c) (hf : f ∈ m.cellFaces.getD c []) {bf : Nat}
    (hbf : m.boundaryFaces[bf]? = some f) {func : SpaceTimeFunction R}
    (hdim : SimplexRule.requireDim func.dim = .ok ()) (t : R) (rule : SimplexRule R 3) :
    m.boundaryMean func t rule bf = .ok (m.faceMean t func rule f) := by
  rw [MeshTables.boundaryMean, fetch_eq_ok.2 hbf, ok_bind, h.facePieces hf, ok_bind,
    SimplexRule.integrateAll_eq_ok hdim, ok_bind, h.fetch_area hf]
  rfl

end MeshTables.Consistent

/-! ## Cells of boundary faces -/

namespace PolyhedralMesh

variable {vertices : List (Vec3 R)} {cells : List (List Loop)} {m : PolyhedralMesh R}

/-- Only the cells of a mesh have faces. -/
theorem lt_cellCount_of_mem_cellFaces (hm : build vertices cells = .ok m) {c f : Nat}
    (hf : f ∈ m.cellFaces.getD c []) : c < m.cellCount := by
  obtain ⟨-, -, rfl⟩ := build_eq_ok.1 hm
  by_contra hlt
  have hlen : (assemble vertices (.ofCells cells)).cellFaces.length ≤ c := by
    simpa [MeshTables.cellCount, assemble] using hlt
  rw [List.getD_eq_default _ _ hlen] at hf
  exact absurd hf List.not_mem_nil

/-- A boundary face is a face of some cell. -/
theorem exists_cell_of_mem_boundaryFaces (hm : build vertices cells = .ok m) {f : Nat}
    (hf : f ∈ m.boundaryFaces) : ∃ c < m.cellCount, f ∈ m.cellFaces.getD c [] := by
  obtain ⟨-, -, rfl⟩ := build_eq_ok.1 hm
  have honce := (List.mem_filter.1 hf).2
  have hcount : (Numbering.ofCells cells).cellFaces.flatten.count f = 1 := by
    simpa [Numbering.isListedOnce] using honce
  obtain ⟨ids, hids, hfids⟩ := List.mem_flatten.1 (List.count_pos_iff.1 (by rw [hcount]; omega))
  obtain ⟨c, hc, rfl⟩ := List.getElem_of_mem hids
  refine ⟨c, by simpa [MeshTables.cellCount, assemble] using hc, mem_cellFaces.2 ?_⟩
  rwa [Numbering.facesOfCell, List.getD_eq_getElem _ _ hc]

/-- All boundary faces have means. -/
theorem exists_boundaryMean (hm : build vertices cells = .ok m) {f : SpaceTimeFunction R}
    (hdim : SimplexRule.requireDim f.dim = .ok ()) (t : R) (rule : SimplexRule R 3) {bf : Nat}
    (hbf : bf < m.boundaryFaces.length) : ∃ mean, m.boundaryMean f t rule bf = .ok mean := by
  obtain ⟨c, hc, hface⟩ := exists_cell_of_mem_boundaryFaces hm (List.getElem_mem hbf)
  have h := consistent_of_build hm hc
  exact ⟨_, h.boundaryMean hface (List.getElem?_eq_getElem hbf) hdim t rule⟩

end PolyhedralMesh

/-! ## Averages -/

namespace BulkEvaluator

variable {vertices : List (Vec3 R)} {cells : List (List Loop)} {m : PolyhedralMesh R}
  {ev : BulkEvaluator R} {level : Level} {c face bf : Nat}

theorem putsValue_boundaryAverageOfFunction (hm : PolyhedralMesh.build vertices cells = .ok m)
    (hc : c < m.cellCount) (hface : face ∈ m.cellFaces.getD c [])
    (hbf : m.boundaryFaces[bf]? = some face) (hev : ev.For m.toMeshTables level)
    {f : SpaceTimeFunction R} (hdim : f.dim = 1 ∨ f.dim = 3 ∨ f.dim = 9) (t : R) (l : Level) :
    PutsValue (· < m.boundaryFaces.length) f.dim (ev.boundaryAverageOfFunction f · t l) bf
      (m.faceMean t f (.triangle l) face) := by
  have hrequire : SimplexRule.requireDim f.dim = .ok () := SimplexRule.requireDim_eq_ok hdim
  have hcall : Entrywise m.toMeshTables level f.dim (m.boundaryMean f t (.triangle l))
      (BulkCall.boundaryAverageOfFunction f t l).run :=
    BulkCall.entrywise_boundaryAverageOfFunction f t (SimplexRule.triangleFor_eq_ok l hdim)
  refine hcall.putsValue hev (by omega) (fun e he => ?_) ?_
  · exact PolyhedralMesh.exists_boundaryMean hm hrequire t _ he
  · exact (PolyhedralMesh.consistent_of_build hm hc).boundaryMean hface hbf hrequire t _

theorem putsValue_boundaryAverage (hm : PolyhedralMesh.build vertices cells = .ok m)
    (hc : c < m.cellCount) (hface : face ∈ m.cellFaces.getD c [])
    (hbf : m.boundaryFaces[bf]? = some face) (hev : ev.For m.toMeshTables level)
    {q : Quantity R} (hq : q.source.HasMeans) (t : R) :
    PutsValue (· < m.boundaryFaces.length) q.dim (ev.boundaryAverage q · t) bf
      (q.source.faceMean m.toMeshTables t level face) := by
  obtain ⟨support, source⟩ := q
  cases source with
  | constant v =>
    exact (BulkCall.entrywise_constant v).putsValue hev v.dim_pos.ne' (fun _ _ => ⟨_, rfl⟩) rfl
  | function f =>
    have hputs := putsValue_boundaryAverageOfFunction hm hc hface hbf hev hq t level
    rw [← hev.quadrature_eq] at hputs ⊢
    exact hputs
  | array a => exact hq.elim
  | field a => exact hq.elim

end BulkEvaluator

/-- **Averages over boundary faces.**  The average of a constant or a function over face `k` of a
cell is what bulk evaluation puts into the slots of the boundary face with that number: at the
level of its settings or at a given one, for every selection of boundary faces, threshold, schedule
and buffer, and in any arithmetic. -/
theorem CellCache.boundary_averages {vertices : List (Vec3 R)} {cells : List (List Loop)}
    {m : PolyhedralMesh R} (hm : PolyhedralMesh.build vertices cells = .ok m) {c k face bf : Nat}
    (hk : (m.cellFaces.getD c [])[k]? = some face) (hbf : m.boundaryFaces[bf]? = some face) :
    ∃ cm, build m.toMeshTables c .all = .ok cm ∧
      ∀ q : Quantity R, q.source.HasMeans → ∀ (t : R) (level : Level), ∃ mean : List R,
        mean.length = q.dim ∧
        (∀ buf : Buffer R, q.dim ≤ buf.length →
          cm.faceAverage q k t level buf = .ok () (mean ++ buf.drop q.dim)) ∧
        (∀ ev : BulkEvaluator R, ev.For m.toMeshTables level →
          PutsValue (· < m.boundaryFaces.length) q.dim (ev.boundaryAverage q · t) bf mean) ∧
        ∀ f, q.source = .function f → ∀ (ev : BulkEvaluator R) (l : Level),
          ev.For m.toMeshTables l → PutsValue (· < m.boundaryFaces.length) f.dim
            (ev.boundaryAverageOfFunction f · t level) bf mean := by
  have hface := List.mem_of_getElem? hk
  have hc := PolyhedralMesh.lt_cellCount_of_mem_cellFaces hm hface
  have hcons := PolyhedralMesh.consistent_of_build hm hc
  refine ⟨_, build_eq_ofTables hcons CapabilitySet.closed_all, fun q hq t level =>
    ⟨q.source.faceMean m.toMeshTables t level face, Source.length_faceMean _ _ _ _ hq,
      fun buf hbuf => faceAverage_ofTables hcons hq level hk hbuf, fun ev hev => ?_,
      fun f hf ev l hev => ?_⟩⟩
  · exact BulkEvaluator.putsValue_boundaryAverage hm hc hface hbf hev hq t
  · rw [hf] at hq ⊢
    exact BulkEvaluator.putsValue_boundaryAverageOfFunction hm hc hface hbf hev hq t level

/-- A function that grows in time, over a face of the unit tetrahedron. -/
theorem boundary_averages_unitMesh :
    ∃ (cm : CellCache ℝ) (mean out : List ℝ),
      CellCache.build Tetrahedron.unitMesh.toMeshTables 0 .all = .ok cm ∧
      cm.faceAverage ⟨.face, .function ⟨1, fun t x => #v[t * x.x]⟩⟩ 2 3 .higher [7, 7] =
        .ok () (mean ++ [7]) ∧
      BulkEvaluator.boundaryAverage ⟨Tetrahedron.unitMesh.toMeshTables, ⟨.higher, 2⟩, .sequential⟩
        ⟨.face, .function ⟨1, fun t x => #v[t * x.x]⟩⟩ (.scattered [0, 2]) 3 [7, 7, 7, 7] =
          .ok () out ∧ slice out 2 3 = .ok mean := by
  have hk : (Tetrahedron.unitMesh.cellFaces.getD 0 [])[2]? = some 2 := by
    rw [Tetrahedron.cellFaces_unitMesh]
    rfl
  have hbf : Tetrahedron.unitMesh.boundaryFaces[2]? = some 2 := by
    rw [Tetrahedron.boundaryFaces_unitMesh]
    rfl
  obtain ⟨cm, hcm, haverages⟩ := CellCache.boundary_averages Tetrahedron.build_unitMesh hk hbf
  obtain ⟨mean, hlen, hcell, hbulk, -⟩ :=
    haverages ⟨.face, .function ⟨1, fun t x => #v[t * x.x]⟩⟩ (.inl rfl) 3 .higher
  have hputs := hbulk ⟨Tetrahedron.unitMesh.toMeshTables, ⟨.higher, 2⟩, .sequential⟩
    ⟨rfl, rfl, Schedule.valid_sequential⟩
  obtain ⟨out, hout⟩ := hputs.exists_eq_ok (.scattered [0, 2]) [7, 7, 7, 7] (by decide)
    (by simp [Selection.entities, Tetrahedron.boundaryFaces_unitMesh])
    (by simp [Selection.Fits, Selection.targets, Quantity.dim, Source.dim])
  exact ⟨cm, mean, out, hcm, hcell [7, 7] (by decide), hout,
    hputs.slot_eq _ _ _ hout 1 (by decide) rfl 2 rfl⟩

end Polyfield
