import Polyfield.Proofs.BuiltCache
import Polyfield.Proofs.CellMeans
import Polyfield.Proofs.PieceMoments
import Polyfield.Proofs.SlotContents
import Polyfield.Proofs.TetrahedronCell

/-!
# One pass over a cell and its faces

The integrals over a cell and over all its faces are computed in one pass, and so are the averages.
The pass visits the same pieces in the same order as the routines for the cell and for one face,
so it leaves the same in the buffers, in any arithmetic.

* `CellCache.integrals_ofTables` : the pass and the separate integrals, with the rest of the
  buffers;
* `CellCache.single_pass` : the pass agrees with the separate routines on every cache with all
  capabilities.
-/

namespace Polyfield

namespace CellCache

variable {R : Type} [Scalar R] {m : MeshTables R} {c : Nat} {t : R} {f : SpaceTimeFunction R}

/-! ## Integrals -/

/-- The separate integrals and those of one pass. -/
theorem integrals_ofTables (h : m.Consistent c)
    (htri : m.shape c = .tetra → ∀ face ∈ m.cellFaces.getD c [],
      (m.faceEdges.getD face []).length = 3)
    (hdim : SimplexRule.requireDim f.dim = .ok ()) (tetraRule : SimplexRule R 4)
    (triangleRule : SimplexRule R 3) {cellBuf faceBuf : Buffer R} (hcell : f.dim ≤ cellBuf.length)
    (hface : f.dim * (m.cellFaces.getD c []).length ≤ faceBuf.length) :
    ∃ cellOut faceOut,
      (ofTables m c .all).integrateCellAndFaces t f tetraRule triangleRule cellBuf faceBuf =
        .ok (cellOut, faceOut) ∧
      (ofTables m c .all).integrateCell t f tetraRule cellBuf = .ok cellOut ∧
      faceOut.length = faceBuf.length ∧
      (∀ k < (m.cellFaces.getD c []).length, (ofTables m c .all).integrateFace k t f triangleRule
          ((faceBuf.drop (f.dim * k)).take f.dim) = .ok ((faceOut.drop (f.dim * k)).take f.dim)) ∧
      faceOut.drop (f.dim * (m.cellFaces.getD c []).length) =
        faceBuf.drop (f.dim * (m.cellFaces.getD c []).length) := by
  set count := (m.cellFaces.getD c []).length with hcount
  set add : Nat → Buffer R → Buffer R := fun k =>
    (m.triangles (m.faceAt c k)).foldl (triangleRule.addIntegral t f)
  set vs := List.zipWith add (List.range count) (blocks f.dim count faceBuf) with hvs
  have hlength : vs.length = count := by simp [hvs]
  have hslot : ∀ k (hk : k < vs.length),
      vs[k] = add k ((faceBuf.drop (f.dim * k)).take f.dim) := by
    intro k hk
    rw [hlength] at hk
    have hget : vs[k]? = some (add k ((faceBuf.drop (f.dim * k)).take f.dim)) := by
      rw [hvs, List.getElem?_zipWith, getElem?_blocks hk, List.getElem?_range hk]
    exact (List.getElem?_eq_some_iff.1 hget).2
  have hdims : ∀ v ∈ vs, v.length = f.dim := by
    intro v hv
    obtain ⟨k, hk, rfl⟩ := List.getElem_of_mem hv
    have hle : f.dim * (k + 1) ≤ f.dim * count := Nat.mul_le_mul_left _ (by omega)
    rw [hslot k hk, SimplexRule.length_foldl_addIntegral, List.length_take, List.length_drop]
    rw [Nat.mul_succ] at hle
    omega
  have hfill := Selection.fillSlots_eq_ok_of_steps f.dim (g := add)
    (fun k s => SimplexRule.integrateAll_eq_ok hdim (m.triangles (m.faceAt c k)) s)
    (List.range count) faceBuf
  rw [List.length_range] at hfill
  have hflatten := length_flatten_of_forall hdims
  rw [hlength] at hflatten
  refine ⟨_, vs.flatten ++ faceBuf.drop (f.dim * count), ?_,
    (integrateCell_ofTables h hcell).trans (SimplexRule.integrateAll_eq_ok hdim _ _), ?_,
    fun k hk => ?_, List.drop_left' hflatten⟩
  · rw [integrateCellAndFaces_ofTables h htri hdim tetraRule triangleRule hcell hface, hfill]
    rfl
  · rw [List.length_append, hflatten, List.length_drop]
    omega
  · have hk' : k < vs.length := by rwa [hlength]
    have hle : f.dim * (k + 1) ≤ f.dim * count := Nat.mul_le_mul_left _ (by omega)
    rw [Nat.mul_succ] at hle
    rw [take_drop_flatten_append hdims _ hk', hslot k hk',
      integrateFace_ofTables h (MeshTables.getElem?_faceAt hk)
        (by rw [List.length_take, List.length_drop]; omega),
      SimplexRule.integrateAll_eq_ok hdim]

/-! ## Caches that were built -/

/-- **The single pass agrees with the separate ones.**  On every cache with all capabilities, in
which a tetrahedron has faces of three edges only, the integrals over the cell and its faces in one
pass are the separate ones, whatever the buffers hold; and the averages in one pass are those over
the faces, followed by that over the cell. -/
theorem single_pass {m : MeshTables R} {cm : CellCache R} (hcm : build m c .all = .ok cm)
    (htri : cm.shape = .tetra → ∀ k < cm.faceCount, ∃ es, cm.faceEdges k = .ok es ∧ es.length = 3)
    (t : R) (level : Level) :
    (∀ (f : SpaceTimeFunction R) (cellBuf faceBuf : Buffer R),
      f.dim = 1 ∨ f.dim = 3 ∨ f.dim = 9 → f.dim ≤ cellBuf.length →
      f.dim * cm.faceCount ≤ faceBuf.length →
      ∃ cellOut faceOut,
        cm.integrateCellAndFaces t f (.tetra level) (.triangle level) cellBuf faceBuf =
          .ok (cellOut, faceOut) ∧
        cm.integrateCell t f (.tetra level) cellBuf = .ok cellOut ∧
        faceOut.length = faceBuf.length ∧
        (∀ k < cm.faceCount, cm.integrateFace k t f (.triangle level)
          ((faceBuf.drop (f.dim * k)).take f.dim) = .ok ((faceOut.drop (f.dim * k)).take f.dim)) ∧
        faceOut.drop (f.dim * cm.faceCount) = faceBuf.drop (f.dim * cm.faceCount)) ∧
    ∀ q : Quantity R, q.source.HasMeans → ∃ (faceMeans : List (List R)) (cellMean : List R),
      faceMeans.length = cm.faceCount ∧ (∀ mean ∈ cellMean :: faceMeans, mean.length = q.dim) ∧
      ∀ buf : Buffer R,
        (q.dim ≤ buf.length → ∀ k mean, faceMeans[k]? = some mean →
          cm.faceAverage q k t level buf = .ok () (mean ++ buf.drop q.dim)) ∧
        (q.dim ≤ buf.length →
          cm.cellAverage q t level buf = .ok () (cellMean ++ buf.drop q.dim)) ∧
        (q.dim * (cm.faceCount + 1) ≤ buf.length → cm.allAverages q t level buf =
          .ok () (faceMeans.flatten ++ cellMean ++ buf.drop (q.dim * (cm.faceCount + 1)))) := by
  obtain ⟨h, rfl⟩ := build_all_eq_ok.1 hcm
  have hcount : (ofTables (m.trimmed c) c .all).faceCount =
      ((m.trimmed c).cellFaces.getD c []).length :=
    faceCount_ofTables (CapabilitySet.contains_all _)
  have hthree : (m.trimmed c).shape c = .tetra → ∀ face ∈ (m.trimmed c).cellFaces.getD c [],
      ((m.trimmed c).faceEdges.getD face []).length = 3 := by
    intro htetra face hface
    obtain ⟨k, hk, hget⟩ := List.getElem_of_mem hface
    obtain ⟨es, hes, hlen⟩ := htri htetra k (by rwa [hcount])
    rw [faceEdges_ofTables (CapabilitySet.contains_all _)
      (List.getElem?_eq_some_iff.2 ⟨hk, hget⟩)] at hes
    rw [← hlen, ← Except.ok.inj hes, List.length_map]
  rw [hcount]
  refine ⟨fun f cellBuf faceBuf hdim hcell hface => integrals_ofTables h hthree
    (SimplexRule.requireDim_eq_ok hdim) _ _ hcell hface, fun q hq => ?_⟩
  refine ⟨((m.trimmed c).cellFaces.getD c []).map fun face =>
    q.source.faceMean (m.trimmed c) t level face, q.source.cellMean (m.trimmed c) c t level,
    by rw [List.length_map], ?_, fun buf => ⟨fun hbuf k mean hk => ?_,
      cellAverage_ofTables h hq level, fun hbuf => ?_⟩⟩
  · refine List.forall_mem_cons.2 ⟨Source.length_cellMean _ _ _ _ hq, fun mean hmean => ?_⟩
    obtain ⟨face, -, rfl⟩ := List.mem_map.1 hmean
    exact Source.length_faceMean _ _ _ _ hq
  · rw [List.getElem?_map, Option.map_eq_some_iff] at hk
    obtain ⟨face, hface, rfl⟩ := hk
    exact faceAverage_ofTables h hq level hface hbuf
  · rw [allAverages_ofTables h hthree hq level hbuf, List.flatMap_def]

end CellCache

/-- The first coordinate over the unit tetrahedron, added to what the buffers hold. -/
theorem single_pass_unitMesh :
    ∃ cm : CellCache ℝ, CellCache.build Tetrahedron.unitMesh.toMeshTables 0 .all = .ok cm ∧
      ∃ cellOut faceOut,
        cm.integrateCellAndFaces 5 ⟨1, fun _ x => #v[x.x]⟩ (.tetra .higher) (.triangle .higher) [7]
          (List.replicate cm.faceCount 2) = .ok (cellOut, faceOut) ∧
        cm.integrateCell 5 ⟨1, fun _ x => #v[x.x]⟩ (.tetra .higher) [7] = .ok cellOut := by
  have hm := Tetrahedron.build_unitMesh
  have hcell := Tetrahedron.regularCell_unitMesh
  have hcons := PolyhedralMesh.consistent_of_build hm hcell.lt
  have hcm := CellCache.build_eq_ofTables hcons CapabilitySet.closed_all
  set cm := CellCache.ofTables Tetrahedron.unitMesh.toMeshTables 0 .all
  have htri : cm.shape = .tetra → ∀ k < cm.faceCount, ∃ es, cm.faceEdges k = .ok es ∧
      es.length = 3 := by
    intro htetra k hk
    rw [CellCache.faceCount_ofTables (CapabilitySet.contains_all _)] at hk
    have hface := MeshTables.getElem?_faceAt hk
    refine ⟨_, CellCache.faceEdges_ofTables (CapabilitySet.contains_all _) hface, ?_⟩
    rw [List.length_map]
    exact RegularCell.three_edges_of_tetra hm hcell htetra _ (List.mem_of_getElem? hface)
  obtain ⟨cellOut, faceOut, hpass, hcellOut, -⟩ := (CellCache.single_pass hcm htri 5 .higher).1
    ⟨1, fun _ x => #v[x.x]⟩ [7] (List.replicate cm.faceCount 2) (.inl rfl) (by simp) (by simp)
  exact ⟨cm, hcm, cellOut, faceOut, hpass, hcellOut⟩

end Polyfield
