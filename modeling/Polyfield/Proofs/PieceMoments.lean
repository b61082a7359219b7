import Polyfield.Proofs.AffineQuadrature
import Polyfield.Proofs.CellPieces
import Polyfield.Proofs.RegularCell

/-!
# Moments of the pieces of a regular cell

The triangles of a face add up to its area and to its first moment, and the tetrahedra of a cell to
its volume and its first moment, however the face and the cell are divided.

* `RegularFace.sum_fan_moment`, `RegularFace.sum_triangles_moment` : for the triangles between the
  edges of a face and its center, and for a face that is one triangle;
* `RegularCell.sum_cones_moment` : for the tetrahedra over the triangles of the faces;
* `RegularCell.center_of_four_vertices` : the center of a cell of four vertices is their mean;
* `RegularCell.sum_pieces_moment` : so a tetrahedron may be taken as a whole.
-/

namespace Polyfield

theorem Simplex.centroid_triangle (a b c : Vec3 ℝ) (area : ℝ) :
    (Simplex.triangle a b c area).centroid = (1 / 3 : ℝ) • (a + b + c) := by
  simp [Simplex.centroid, Simplex.triangle, add_assoc]

/-- The centroid of the tetrahedron between a triangle and a point. -/
theorem Simplex.centroid_push (s : Simplex ℝ 3) (x : Vec3 ℝ) (volume : ℝ) :
    (⟨s.corners.push x, volume⟩ : Simplex ℝ 4).centroid =
      (3 / 4 : ℝ) • s.centroid + (1 / 4 : ℝ) • x := by
  simp only [Simplex.centroid, Vector.toList_push, List.sum_append, List.sum_cons, List.sum_nil,
    add_zero]
  push_cast
  module

theorem triangleArea_swap (a b x : Vec3 ℝ) : triangleArea a b x = triangleArea b a x := by
  rw [triangleArea_eq_norm, triangleArea_eq_norm, triangleVector_swap b a x, ← neg_one_smul ℝ,
    Vec3.norm_smul]
  simp

namespace RegularFace

variable {cells : List (List Loop)} {vertices : List (Vec3 ℝ)} {m : PolyhedralMesh ℝ} {c f : Nat}
  (hface : RegularFace cells m f) (hm : PolyhedralMesh.build vertices cells = .ok m)
  (hf : f ∈ m.cellFaces.getD c [])

include hface hm hf

theorem sum_fan_measure : ((m.fan f).map (·.measure)).sum = (m.face f).measure := by
  rw [PolyhedralMesh.face_of_build hm hf, ← hface.convex.sum_triangleArea,
    ← PolyhedralMesh.face_of_build hm hf,
    ← sum_faceEdges_symm hm hf hface (fun a b => triangleArea_swap a b _), MeshTables.fan,
    List.map_map]
  rfl

theorem sum_fan_moment : ((m.fan f).map fun s => s.measure • s.centroid).sum =
    (m.face f).measure • (m.face f).center := by
  have hconvex := hface.convex
  have hmoment := hconvex.sum_triangleArea_smul hconvex.surrounds_center.inHull
  rw [← PolyhedralMesh.face_of_build hm hf] at hmoment
  have hG : ∀ a b : Vec3 ℝ, triangleArea a b (m.face f).center •
      ((1 / 3 : ℝ) • (a + b + (m.face f).center)) = triangleArea b a (m.face f).center •
        ((1 / 3 : ℝ) • (b + a + (m.face f).center)) := fun a b => by
    rw [triangleArea_swap, add_comm a b]
  rw [← hmoment, ← sum_faceEdges_symm hm hf hface hG, MeshTables.fan, List.map_map]
  refine congrArg List.sum (List.map_congr_left fun e _ => ?_)
  rw [Function.comp_apply, MeshTables.sideTriangle, Simplex.centroid_triangle]
  rfl

theorem sum_centerFan_measure : ((m.centerFan f).map (·.measure)).sum = (m.face f).measure := by
  rw [← sum_fan_measure hface hm hf, MeshTables.fan, MeshTables.centerFan, List.map_map,
    List.map_map]
  rfl

theorem sum_centerFan_moment : ((m.centerFan f).map fun s => s.measure • s.centroid).sum =
    (m.face f).measure • (m.face f).center := by
  rw [← sum_fan_moment hface hm hf, MeshTables.fan, MeshTables.centerFan, List.map_map,
    List.map_map]
  refine congrArg List.sum (List.map_congr_left fun e _ => ?_)
  simp only [Function.comp_apply, MeshTables.sideTriangle, Simplex.centroid_triangle]
  rw [add_assoc, add_comm]
  rfl

/-- The edges of a face are sides of its loop, each from the smaller to the larger vertex. -/
theorem exists_side_of_mem_faceEdges {e : Nat} (he : e ∈ m.faceEdges.getD f []) :
    (m.ends e).1 < (m.ends e).2 ∧
      (m.ends e).1 ∈ (Numbering.ofCells cells).loop f ∧
      (m.ends e).2 ∈ (Numbering.ofCells cells).loop f ∧
      (Numbering.ofCells cells).edgeId (m.ends e) = e := by
  have hl := loop_mem hm hf
  have hlen := three_le_length_loop hm hf
  have hmem := PolyhedralMesh.ends_mem_loop hm hf he
  obtain ⟨-, -, rfl⟩ := PolyhedralMesh.build_eq_ok.1 hm
  obtain ⟨s, hs, rfl⟩ := PolyhedralMesh.mem_faceEdges.1 he
  have hends : (PolyhedralMesh.assemble vertices (.ofCells cells)).ends
      ((Numbering.ofCells cells).edgeId (Edge.ofSide s)) = Edge.ofSide s :=
    Numbering.ends_edgeId (Numbering.ofSide_mem_edges hl hs)
  have hne := fst_ne_snd_of_nodup hface.nodup_loop (by omega) hs
  refine ⟨?_, hmem.1, hmem.2, by rw [hends]⟩
  rw [hends]
  simp only [Edge.ofSide]
  omega

/-- A face has as many edges as its loop has vertices. -/
theorem length_faceEdges :
    (m.faceEdges.getD f []).length = ((Numbering.ofCells cells).loop f).length := by
  have hl := loop_mem hm hf
  have hlen := three_le_length_loop hm hf
  have hnd := hface.nodup_loop
  obtain ⟨-, -, rfl⟩ := PolyhedralMesh.build_eq_ok.1 hm
  rw [(PolyhedralMesh.faceEdges_perm hl hnd hlen).length_eq, List.length_map, length_cyclicPairs]

/-- The center of a face with three vertices is their mean. -/
theorem center_of_three_vertices (hlen : ((Numbering.ofCells cells).loop f).length = 3) :
    (m.face f).center = (1 / 3 : ℝ) • (((Numbering.ofCells cells).loop f).map m.point).sum := by
  have hconvex := hface.convex
  have hpolygon : m.polygon cells f = ((Numbering.ofCells cells).loop f).map m.point := rfl
  obtain ⟨u, v, w, hl⟩ := List.length_eq_three.1 hlen
  rw [PolyhedralMesh.face_of_build hm hf]
  rw [hpolygon, hl] at hconvex ⊢
  rw [List.map_cons, List.map_cons, List.map_cons, List.map_nil] at hconvex ⊢
  rw [hconvex.center_triangle]
  simp [add_assoc]

/-- The corners of a face that is one triangle are the vertices of its loop. -/
theorem triangle_corners_perm {e₀ e₁ e₂ : Nat}
    (hedges : m.faceEdges.getD f [] = [e₀, e₁, e₂]) :
    [(m.ends e₀).1, (m.ends e₀).2, m.thirdVertex e₀ e₁].Perm
      ((Numbering.ofCells cells).loop f) := by
  have hlen := length_faceEdges hface hm hf
  have hnd : (m.faceEdges.getD f []).Nodup := by
    obtain ⟨-, -, rfl⟩ := PolyhedralMesh.build_eq_ok.1 hm
    rw [PolyhedralMesh.faceEdges_getD, PolyhedralMesh.faceRow, SparseRow.columns_gather]
    exact SparseRow.nodup_sortedColumns _
  obtain ⟨hlt₀, ha, hb, hid₀⟩ := exists_side_of_mem_faceEdges hface hm hf (e := e₀)
    (by rw [hedges]; simp)
  obtain ⟨hlt₁, hc', hd, hid₁⟩ := exists_side_of_mem_faceEdges hface hm hf (e := e₁)
    (by rw [hedges]; simp)
  rw [hedges] at hlen hnd
  have hne : m.ends e₀ ≠ m.ends e₁ := fun h => by
    rw [h, hid₁] at hid₀
    simp [hid₀] at hnd
  have hthird : m.thirdVertex e₀ e₁ ∈ (Numbering.ofCells cells).loop f ∧
      m.thirdVertex e₀ e₁ ≠ (m.ends e₀).1 ∧ m.thirdVertex e₀ e₁ ≠ (m.ends e₀).2 := by
    rw [Ne, Prod.ext_iff] at hne
    unfold MeshTables.thirdVertex
    split
    · exact ⟨hd, by omega, by omega⟩
    · exact ⟨hc', by omega, by omega⟩
  refine (List.subperm_of_subset ?_ ?_).perm_of_length_le hlen.ge
  · simp [hlt₀.ne, hthird.2.1.symm, hthird.2.2.symm]
  · simp [ha, hb, hthird.1]

/-- **The triangles of a face add up to its area.** -/
theorem sum_triangles_measure : ((m.triangles f).map (·.measure)).sum = (m.face f).measure := by
  by_cases hlen : (m.faceEdges.getD f []).length = 3
  · obtain ⟨e₀, e₁, e₂, hedges⟩ := List.length_eq_three.1 hlen
    simp [MeshTables.triangles_of_three hedges, MeshTables.triangle, Simplex.triangle]
  · rw [MeshTables.triangles_of_length_ne hlen]
    exact sum_fan_measure hface hm hf

/-- **The triangles of a face add up to its first moment.** -/
theorem sum_triangles_moment : ((m.triangles f).map fun s => s.measure • s.centroid).sum =
    (m.face f).measure • (m.face f).center := by
  by_cases hlen : (m.faceEdges.getD f []).length = 3
  · obtain ⟨e₀, e₁, e₂, hedges⟩ := List.length_eq_three.1 hlen
    have hperm := triangle_corners_perm hface hm hf hedges
    have hcenter := center_of_three_vertices hface hm hf
      ((length_faceEdges hface hm hf).symm.trans hlen)
    have hcentroid : (m.triangle f e₀ e₁).centroid = (m.face f).center := by
      rw [hcenter, ← (hperm.map m.point).sum_eq, MeshTables.triangle, Simplex.centroid_triangle]
      simp [add_assoc]
    rw [MeshTables.triangles_of_three hedges]
    simp only [List.map_cons, List.map_nil, List.sum_cons, List.sum_nil, add_zero, hcentroid]
    rfl
  · rw [MeshTables.triangles_of_length_ne hlen]
    exact sum_fan_moment hface hm hf

end RegularFace

namespace RegularCell

variable {cells : List (List Loop)} {vertices : List (Vec3 ℝ)} {m : PolyhedralMesh ℝ} {c f : Nat}
  (hm : PolyhedralMesh.build vertices cells = .ok m) (hc : RegularCell cells m c)

include hm hc

/-! ## Cells -/

omit hm hc in
/-- A third of the height of a face is the volume of its cone for each unit of its area. -/
theorem faceHeight_div_mul (m : PolyhedralMesh ℝ) (c f : Nat) :
    m.faceHeight c f / ((3 : Nat) : ℝ) * (m.face f).measure =
      Cone.volume (m.cellCenters.getD c 0) (m.face f) := by
  rw [Cone.volume, MeshTables.faceHeight, Cone.height]
  ring

/-- **The tetrahedra of a cell add up to its volume.** -/
theorem sum_cones_measure :
    (((m.cellFaces.getD c []).flatMap (m.cones c)).map (·.measure)).sum =
      m.cellVolumes.getD c 0 := by
  rw [sum_flatMap_map, volume_eq hm hc, ← sum_coneVolume hm hc (surrounds_center hm hc)]
  refine congrArg List.sum (List.map_congr_left fun f hf => ?_)
  rw [MeshTables.cones, List.map_map, ← faceHeight_div_mul,
    ← (hc.face hf).sum_triangles_measure hm hf, ← List.sum_map_mul_left]
  rfl

/-- **The tetrahedra of a cell add up to its first moment.** -/
theorem sum_cones_moment :
    (((m.cellFaces.getD c []).flatMap (m.cones c)).map fun s => s.measure • s.centroid).sum =
      m.cellVolumes.getD c 0 • m.cellCenters.getD c 0 := by
  rw [sum_flatMap_map, ← sum_coneMoments hm hc (surrounds_center hm hc)]
  refine congrArg List.sum (List.map_congr_left fun f hf => ?_)
  have hterm : ∀ s : Simplex ℝ 3,
      (m.faceHeight c f / ((3 : Nat) : ℝ) * s.measure) •
        ((3 / 4 : ℝ) • s.centroid + (1 / 4 : ℝ) • m.cellCenters.getD c 0) =
      (m.faceHeight c f / ((3 : Nat) : ℝ) * (3 / 4)) • (s.measure • s.centroid) +
        s.measure • ((m.faceHeight c f / ((3 : Nat) : ℝ) * (1 / 4)) •
          m.cellCenters.getD c 0) := fun s => by module
  rw [MeshTables.cones, List.map_map]
  simp only [Function.comp_def, Simplex.centroid_push, hterm]
  rw [List.sum_map_add, ← smul_sum_map, sum_map_smul, (hc.face hf).sum_triangles_moment hm hf,
    (hc.face hf).sum_triangles_measure hm hf, ← faceHeight_div_mul]
  module

/-! ## Cells of four vertices -/

/-- The vertices of a face lie in its plane. -/
theorem unit_dot_point (hf : f ∈ m.cellFaces.getD c []) {v : Nat}
    (hv : v ∈ (Numbering.ofCells cells).loop f) :
    (m.face f).unit.dot (m.point v) = (m.face f).unit.dot (m.face f).center := by
  have hconvex := hc.convex f hf
  have hmem : m.point v ∈ m.polygon cells f := List.mem_map_of_mem hv
  rw [PolyhedralMesh.face_of_build hm hf]
  exact hconvex.unit_dot_eq (inHull_of_mem hmem) hconvex.surrounds_center.inHull

/-- The faces of a cell of four vertices have three vertices. -/
theorem three_vertices_of_four_vertices (h4 : (m.cellVertices.getD c []).length = 4)
    (hf : f ∈ m.cellFaces.getD c []) : ((Numbering.ofCells cells).loop f).length = 3 := by
  have hlen := RegularFace.three_le_length_loop hm hf
  have hsub : (Numbering.ofCells cells).loop f ⊆ m.cellVertices.getD c [] := fun v hv =>
    PolyhedralMesh.mem_cellVertices_of_mem_loop hm hf hv
  have hsubperm := List.subperm_of_subset (hc.nodup_loop f hf) hsub
  have hle := hsubperm.length_le
  by_contra hne
  -- a fourth vertex would put all vertices of the cell into the plane of the face
  have hperm := hsubperm.perm_of_length_le (by omega)
  obtain ⟨v, hv, hoff⟩ := hc.off_plane f hf
  refine hoff ?_
  rw [MeshTables.elevation, Vec3.dot_sub, unit_dot_point hm hc hf (hperm.mem_iff.2 hv), sub_self]

/-- The faces of a cell that is a tetrahedron have three edges. -/
theorem three_edges_of_tetra (h : m.shape c = .tetra) :
    ∀ face ∈ m.cellFaces.getD c [], (m.faceEdges.getD face []).length = 3 := fun face hface => by
  rw [(hc.face hface).length_faceEdges hm hface]
  exact three_vertices_of_four_vertices hm hc (MeshTables.length_of_shape_eq_tetra h) hface

/-- **The center of a cell of four vertices is their mean.** -/
theorem center_of_four_vertices (h4 : (m.cellVertices.getD c []).length = 4) :
    m.cellCenters.getD c 0 = (1 / 4 : ℝ) • (m.pointsOfCell c).sum := by
  obtain ⟨v, hv⟩ : ∃ v, v ∈ m.cellVertices.getD c [] :=
    List.exists_mem_of_length_pos (by omega)
  -- the cone from `v` over the opposite face is the whole cell, and all others are flat
  have hterm : ∀ f ∈ m.cellFaces.getD c [], ((m.faceSign c f : ℝ) *
      (Polygon.vectorArea (m.polygon cells f)).dot ((m.face f).center - m.point v) / 3) •
        ((3 / 4 : ℝ) • (m.face f).center + (1 / 4 : ℝ) • m.point v) =
      ((m.faceSign c f : ℝ) *
        (Polygon.vectorArea (m.polygon cells f)).dot ((m.face f).center - m.point v) / 3) •
          ((1 / 4 : ℝ) • (m.pointsOfCell c).sum) := by
    intro f hf
    by_cases hvf : v ∈ (Numbering.ofCells cells).loop f
    · have hzero : (Polygon.vectorArea (m.polygon cells f)).dot
          ((m.face f).center - m.point v) = 0 := by
        rw [vectorArea_eq hm hc hf, Vec3.smul_dot, Vec3.dot_sub, unit_dot_point hm hc hf hvf,
          sub_self, mul_zero]
      simp [hzero]
    · have hthree := three_vertices_of_four_vertices hm hc h4 hf
      have hnd : (v :: (Numbering.ofCells cells).loop f).Nodup :=
        List.nodup_cons.2 ⟨hvf, hc.nodup_loop f hf⟩
      have hsub : v :: (Numbering.ofCells cells).loop f ⊆ m.cellVertices.getD c [] :=
        List.cons_subset.2
          ⟨hv, fun w hw => PolyhedralMesh.mem_cellVertices_of_mem_loop hm hf hw⟩
      have hperm := (List.subperm_of_subset hnd hsub).perm_of_length_le
        (by rw [h4, List.length_cons, hthree])
      rw [MeshTables.pointsOfCell, ← (hperm.map m.point).sum_eq, List.map_cons, List.sum_cons,
        (hc.face hf).center_of_three_vertices hm hf hthree]
      congr 1
      module
  have hmoment := sum_signedConeMoments hm hc (m.point v)
  rw [List.map_congr_left hterm, sum_map_smul, (closedSurface_volume hm hc).sum_cones] at hmoment
  exact (smul_right_injective (Vec3 ℝ) (volume_pos hm hc).ne' hmoment).symm

/-! ## The pieces of a cell -/

/-- **The pieces of a cell add up to its volume.** -/
theorem sum_pieces_measure :
    ((m.pieces c).map (·.measure)).sum = m.cellVolumes.getD c 0 := by
  rw [MeshTables.pieces]
  by_cases htetra : m.shape c = .tetra
  · rw [if_pos htetra, List.map_singleton, List.sum_singleton]
    rfl
  · rw [if_neg htetra]
    exact sum_cones_measure hm hc

/-- **The pieces of a cell add up to its first moment.** -/
theorem sum_pieces_moment :
    ((m.pieces c).map fun s => s.measure • s.centroid).sum =
      m.cellVolumes.getD c 0 • m.cellCenters.getD c 0 := by
  rw [MeshTables.pieces]
  by_cases htetra : m.shape c = .tetra
  · have h4 := MeshTables.length_of_shape_eq_tetra htetra
    have hlength : (m.pointsOfCell c).length = 4 := by
      rwa [MeshTables.pointsOfCell, List.length_map]
    obtain ⟨p, q, r, s, hpoints⟩ := List.length_eq_four.1 hlength
    have hcentroid : (m.wholeTetra c).centroid = m.cellCenters.getD c 0 := by
      rw [center_of_four_vertices hm hc h4, MeshTables.wholeTetra, hpoints]
      simp [Simplex.centroid, Simplex.tetra]
    rw [if_pos htetra, List.map_singleton, List.sum_singleton, hcentroid]
    rfl
  · rw [if_neg htetra]
    exact sum_cones_moment hm hc

end RegularCell

end Polyfield
