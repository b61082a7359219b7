import Polyfield.Proofs.Hull
import Polyfield.Proofs.Incidence

/-!
# The orientation of the faces of a cell

A cell orients its faces by the mean of their centers.  A cell is proper if it lists every face
once and its faces have positive area (`ProperCell`); its vertices then surround this point, and a
face with the whole cell on one side of its plane is oriented away from it.

* `ProperCell.surrounds_apex` : the vertices of a cell surround the mean of its face centers;
* `ProperCell.faceSign_eq_one`, `ProperCell.faceSign_eq_neg_one` : the orientation of a face by the
  side of its plane that the cell lies on.
-/

namespace Polyfield

/-! ## Cones -/

namespace Cone

variable {faces others : List (EntityGeometry ℝ)}

theorem apex_perm (h : faces.Perm others) : apex faces = apex others := by
  rw [apex, apex, total_perm (h.map _), h.length_eq]

theorem cellVolume_perm (h : faces.Perm others) : cellVolume faces = cellVolume others := by
  rw [cellVolume, cellVolume, apex_perm h, total_perm (h.map _)]

theorem cellCenter_perm (h : faces.Perm others) : cellCenter faces = cellCenter others := by
  rw [cellCenter, cellCenter, cellVolume_perm h, apex_perm h, total_perm (h.map _)]

theorem apex_eq_weightedMean (faces : List (EntityGeometry ℝ)) :
    apex faces = weightedMean faces (fun _ => 1) (·.center) := by
  simp [apex, weightedMean, total_eq_sum]

theorem cellCenter_eq_weightedMean (faces : List (EntityGeometry ℝ)) :
    cellCenter faces = weightedMean faces (volume (apex faces)) (barycenter (apex faces)) := by
  simp only [cellCenter, cellVolume, weightedMean, total_eq_sum]

theorem barycenter_eq (x : Vec3 ℝ) (face : EntityGeometry ℝ) :
    barycenter x face = (3 / 4 : ℝ) • face.center + (1 / 4 : ℝ) • x := by
  rw [barycenter, Scalar.ratio_real]
  push_cast
  module

theorem sign_mul_self (x : Vec3 ℝ) (face : EntityGeometry ℝ) :
    (sign x face : ℝ) * sign x face = 1 := by
  rcases sign_eq x face with h | h <;> simp [h]

/-- A cell has some volume if one of its cones has. -/
theorem cellVolume_pos {faces : List (EntityGeometry ℝ)} {face : EntityGeometry ℝ}
    (hface : face ∈ faces) (hmeasure : ∀ face ∈ faces, 0 < face.measure)
    (hheight : height (apex faces) face ≠ 0) : 0 < cellVolume faces := by
  have hnonneg : ∀ v ∈ faces.map (volume (apex faces)), 0 ≤ v := by
    intro v hv
    obtain ⟨other, hother, rfl⟩ := List.mem_map.1 hv
    have := hmeasure other hother
    rw [volume, Scalar.abs_real]
    positivity
  have hpos : 0 < volume (apex faces) face := by
    have := hmeasure face hface
    rw [volume, Scalar.abs_real]
    positivity
  rw [cellVolume, total_eq_sum]
  exact hpos.trans_le (List.single_le_sum hnonneg _ (List.mem_map_of_mem hface))

section EqualCones

variable {v : ℝ} (hfaces : faces ≠ [])
  (hcones : ∀ face ∈ faces, volume (apex faces) face = v)
include hcones

theorem cellVolume_of_volume_eq : cellVolume faces = faces.length * v := by
  rw [cellVolume, total_eq_sum, List.map_congr_left hcones, List.map_const', List.sum_replicate,
    nsmul_eq_mul]

include hfaces

/-- **The center of a cell whose cones have the same volume** is the mean of its face centers. -/
theorem cellCenter_of_volume_eq (hv : v ≠ 0) : cellCenter faces = apex faces := by
  have hapex : (faces.map (·.center)).sum = (faces.length : ℝ) • apex faces := by
    have hmean := smul_weightedMean faces (fun _ => (1 : ℝ)) (·.center) (sum_ones_pos hfaces).ne'
    rw [← apex_eq_weightedMean] at hmean
    simpa using hmean.symm
  rw [cellCenter_eq_weightedMean]
  refine weightedMean_eq_of_sum_eq hfaces hv hcones ?_
  rw [List.map_congr_left fun face _ => barycenter_eq (apex faces) face, List.sum_map_add,
    ← smul_sum_map, hapex, List.map_const', List.sum_replicate]
  module

end EqualCones

end Cone

/-! ## Faces of a cell -/

section Definitions

variable {R : Type} [Scalar R]

/-- The corners of a face, in the order of the loop that was first given for it. -/
def PolyhedralMesh.polygon (m : PolyhedralMesh R) (cells : List (List Loop)) (f : Nat) :
    List (Vec3 R) :=
  corners m.vertexPoints ((Numbering.ofCells cells).loop f)

end Definitions

namespace PolyhedralMesh

variable {R : Type} [Scalar R] {cells : List (List Loop)} {vertices : List (Vec3 R)}
  {m : PolyhedralMesh R} {c f : Nat}

theorem mem_facesOfCell_of_build (hm : build vertices cells = .ok m) :
    f ∈ m.cellFaces.getD c [] ↔ f ∈ (Numbering.ofCells cells).facesOfCell c := by
  obtain ⟨-, -, rfl⟩ := build_eq_ok.1 hm
  exact mem_cellFaces

/-- The stored geometry of a face is that of its corners. -/
theorem face_of_build (hm : build vertices cells = .ok m) (hf : f ∈ m.cellFaces.getD c []) :
    m.face f = Polygon.geometry (m.polygon cells f) := by
  have hf' := (mem_facesOfCell_of_build hm).1 hf
  obtain ⟨-, -, rfl⟩ := build_eq_ok.1 hm
  rw [face_assemble, faceGeometries_getD (Numbering.lt_of_mem_facesOfCell hf')]
  rfl

theorem nodup_cellFaces (hm : build vertices cells = .ok m) (c : Nat) :
    (m.cellFaces.getD c []).Nodup := by
  obtain ⟨-, -, rfl⟩ := build_eq_ok.1 hm
  rw [cellFaces_getD, cellRow, SparseRow.columns_gather]
  exact SparseRow.nodup_sortedColumns _

theorem nodup_cellEdges (hm : build vertices cells = .ok m) (c : Nat) :
    (m.cellEdges.getD c []).Nodup := by
  obtain ⟨-, -, rfl⟩ := build_eq_ok.1 hm
  rw [cellEdges_getD, edgeRow, SparseRow.columns_gather]
  exact SparseRow.nodup_sortedColumns _

theorem nodup_cellVertices (hm : build vertices cells = .ok m) (c : Nat) :
    (m.cellVertices.getD c []).Nodup := by
  obtain ⟨-, -, rfl⟩ := build_eq_ok.1 hm
  rw [cellVertices_getD, vertexRow, SparseRow.columns_gather]
  exact SparseRow.nodup_sortedColumns _

/-- The vertices of a face of a cell are vertices of the cell. -/
theorem mem_cellVertices_of_mem_loop (hm : build vertices cells = .ok m)
    (hf : f ∈ m.cellFaces.getD c []) {v : Nat} (hv : v ∈ (Numbering.ofCells cells).loop f) :
    v ∈ m.cellVertices.getD c [] := by
  have hf' := (mem_facesOfCell_of_build hm).1 hf
  obtain ⟨-, -, rfl⟩ := build_eq_ok.1 hm
  exact mem_cellVertices.2 ⟨f, hf', hv⟩

end PolyhedralMesh

/-! ## Sides of a face -/

namespace MeshTables

variable {m : MeshTables ℝ} {c f : Nat} {x : Vec3 ℝ}

/-- A point that the vertices surround lies below a face that has none of them above its plane. -/
theorem height_pos_of_surrounds (hx : Surrounds (m.pointsOfCell c) x)
    (hside : ∀ v ∈ m.cellVertices.getD c [], m.elevation f v ≤ 0)
    (hoff : ∃ v ∈ m.cellVertices.getD c [], m.elevation f v ≠ 0) :
    0 < Cone.height x (m.face f) := by
  have hdot : ∀ v, -(m.face f).unit.dot (m.face f).center =
      (-(m.face f).unit).dot (m.point v) + m.elevation f v := by
    intro v
    rw [elevation, Vec3.dot_sub, Vec3.neg_dot]
    ring
  have hlt := hx.lt (-(m.face f).unit) (-(m.face f).unit.dot (m.face f).center) ?_ ?_
  · rw [Vec3.neg_dot] at hlt
    rw [Cone.height, Vec3.dot_sub]
    linarith
  · intro p hp
    obtain ⟨v, hv, rfl⟩ := List.mem_map.1 hp
    linarith [hside v hv, hdot v]
  · obtain ⟨v, hv, hne⟩ := hoff
    have hlt := lt_of_le_of_ne (hside v hv) hne
    exact ⟨m.point v, List.mem_map_of_mem hv, by linarith [hdot v]⟩

/-- A point that the vertices surround lies above a face that has none of them below its plane. -/
theorem height_neg_of_surrounds (hx : Surrounds (m.pointsOfCell c) x)
    (hside : ∀ v ∈ m.cellVertices.getD c [], 0 ≤ m.elevation f v)
    (hoff : ∃ v ∈ m.cellVertices.getD c [], m.elevation f v ≠ 0) :
    Cone.height x (m.face f) < 0 := by
  have hdot : ∀ v, (m.face f).unit.dot (m.point v) =
      (m.face f).unit.dot (m.face f).center + m.elevation f v := by
    intro v
    rw [elevation, Vec3.dot_sub]
    ring
  have hlt := hx.lt (m.face f).unit ((m.face f).unit.dot (m.face f).center) ?_ ?_
  · rw [Cone.height, Vec3.dot_sub]
    linarith
  · intro p hp
    obtain ⟨v, hv, rfl⟩ := List.mem_map.1 hp
    linarith [hside v hv, hdot v]
  · obtain ⟨v, hv, hne⟩ := hoff
    have hlt := lt_of_le_of_ne (hside v hv) (Ne.symm hne)
    exact ⟨m.point v, List.mem_map_of_mem hv, by linarith [hdot v]⟩

end MeshTables

/-! ## Proper cells -/

/-- A cell that lists each of its faces once, all of positive area. -/
structure ProperCell (cells : List (List Loop)) (m : PolyhedralMesh ℝ) (c : Nat) : Prop where
  lt : c < m.cellCount
  nodup_faces : ((Numbering.ofCells cells).facesOfCell c).Nodup
  measure_pos : ∀ f ∈ m.cellFaces.getD c [], 0 < (m.face f).measure

namespace ProperCell

variable {cells : List (List Loop)} {vertices : List (Vec3 ℝ)} {m : PolyhedralMesh ℝ} {c f : Nat}
  (hm : PolyhedralMesh.build vertices cells = .ok m) (hc : ProperCell cells m c)

include hm hc

/-! ## Stored quantities -/

theorem lt_length_cellFaces : c < (Numbering.ofCells cells).cellFaces.length := by
  obtain ⟨-, -, rfl⟩ := PolyhedralMesh.build_eq_ok.1 hm
  have hlt := hc.lt
  rwa [MeshTables.cellCount, PolyhedralMesh.assemble, List.length_map] at hlt

theorem cellFaces_perm :
    (m.cellFaces.getD c []).Perm ((Numbering.ofCells cells).facesOfCell c) :=
  (List.perm_ext_iff_of_nodup (PolyhedralMesh.nodup_cellFaces hm c) hc.nodup_faces).2
    fun _ => PolyhedralMesh.mem_facesOfCell_of_build hm

theorem faces_perm :
    (PolyhedralMesh.facesOf (PolyhedralMesh.faceGeometries vertices (.ofCells cells))
      ((Numbering.ofCells cells).facesOfCell c)).Perm ((m.cellFaces.getD c []).map m.face) := by
  have hperm := (cellFaces_perm hm hc).symm.map m.face
  obtain ⟨-, -, rfl⟩ := PolyhedralMesh.build_eq_ok.1 hm
  refine List.Perm.trans (.of_eq ?_) hperm
  exact List.map_congr_left fun f _ => (PolyhedralMesh.face_assemble _ _ f).symm

theorem cellVolumes_getD :
    m.cellVolumes.getD c 0 = Cone.cellVolume ((m.cellFaces.getD c []).map m.face) := by
  rw [← Cone.cellVolume_perm (faces_perm hm hc)]
  have hlt := lt_length_cellFaces hm hc
  obtain ⟨-, -, rfl⟩ := PolyhedralMesh.build_eq_ok.1 hm
  exact PolyhedralMesh.cellVolumes_getD hlt

theorem cellCenters_getD :
    m.cellCenters.getD c 0 = Cone.cellCenter ((m.cellFaces.getD c []).map m.face) := by
  rw [← Cone.cellCenter_perm (faces_perm hm hc)]
  have hlt := lt_length_cellFaces hm hc
  obtain ⟨-, -, rfl⟩ := PolyhedralMesh.build_eq_ok.1 hm
  exact PolyhedralMesh.cellCenters_getD hlt

theorem faceSign_eq (hf : f ∈ m.cellFaces.getD c []) : m.faceSign c f =
    Cone.sign (Cone.apex ((m.cellFaces.getD c []).map m.face)) (m.face f) := by
  rw [← Cone.apex_perm (faces_perm hm hc)]
  have hf' := (PolyhedralMesh.mem_facesOfCell_of_build hm).1 hf
  have hnd := hc.nodup_faces
  obtain ⟨-, -, rfl⟩ := PolyhedralMesh.build_eq_ok.1 hm
  rw [PolyhedralMesh.faceSign_eq_count, PolyhedralMesh.face_assemble,
    List.count_eq_one_of_mem hnd hf', one_smul]

theorem faceSign_mul_self (hf : f ∈ m.cellFaces.getD c []) :
    (m.faceSign c f : ℝ) * m.faceSign c f = 1 := by
  rw [faceSign_eq hm hc hf]
  exact Cone.sign_mul_self _ _

theorem cellFaces_ne_nil : m.cellFaces.getD c [] ≠ [] := by
  have hcheck := (PolyhedralMesh.build_eq_ok.1 hm).1
  have hlen := Numbering.four_le_length_facesOfCell hcheck (lt_length_cellFaces hm hc)
  rw [← (cellFaces_perm hm hc).length_eq] at hlen
  exact List.ne_nil_of_length_pos (by omega)

/-! ## Points inside a cell -/

omit hc in
theorem mem_points_of_mem_polygon (hf : f ∈ m.cellFaces.getD c []) {p : Vec3 ℝ}
    (hp : p ∈ m.polygon cells f) : p ∈ m.pointsOfCell c := by
  have hf' := (PolyhedralMesh.mem_facesOfCell_of_build hm).1 hf
  obtain ⟨-, -, rfl⟩ := PolyhedralMesh.build_eq_ok.1 hm
  obtain ⟨v, hv, rfl⟩ := List.mem_map.1 hp
  exact List.mem_map_of_mem (PolyhedralMesh.mem_cellVertices.2 ⟨f, hf', hv⟩)

omit hc in
/-- Every vertex of a cell is a corner of a face. -/
theorem exists_mem_polygon {p : Vec3 ℝ} (hp : p ∈ m.pointsOfCell c) :
    ∃ f ∈ m.cellFaces.getD c [], p ∈ m.polygon cells f := by
  have hmem := fun f => @PolyhedralMesh.mem_facesOfCell_of_build _ _ _ _ _ c f hm
  obtain ⟨-, -, rfl⟩ := PolyhedralMesh.build_eq_ok.1 hm
  obtain ⟨v, hv, rfl⟩ := List.mem_map.1 hp
  obtain ⟨f, hf, hvf⟩ := PolyhedralMesh.mem_cellVertices.1 hv
  exact ⟨f, (hmem f).2 hf, List.mem_map_of_mem hvf⟩

/-- The vertices of a face surround its center. -/
theorem surrounds_faceCenter (hf : f ∈ m.cellFaces.getD c []) :
    Surrounds (m.polygon cells f) (m.face f).center := by
  have harea := hc.measure_pos f hf
  rw [PolyhedralMesh.face_of_build hm hf] at harea ⊢
  exact Polygon.surrounds_barycenter (Polygon.fanArea_pos harea)

theorem inHull_faceCenter (hf : f ∈ m.cellFaces.getD c []) :
    InHull (m.pointsOfCell c) (m.face f).center :=
  (surrounds_faceCenter hm hc hf).inHull.mono fun _ => mem_points_of_mem_polygon hm hf

/-- A half space that holds the cell properly has the center of some face inside. -/
theorem exists_lt_dot_faceCenter {g : Vec3 ℝ} {k : ℝ}
    (hg : ∀ p ∈ m.pointsOfCell c, k ≤ g.dot p) (hlt : ∃ p ∈ m.pointsOfCell c, k < g.dot p) :
    ∃ f ∈ m.cellFaces.getD c [], k < g.dot (m.face f).center := by
  obtain ⟨p, hp, hkp⟩ := hlt
  obtain ⟨f, hf, hpf⟩ := exists_mem_polygon hm hp
  refine ⟨f, hf, (surrounds_faceCenter hm hc hf).lt g k (fun q hq => ?_) ⟨p, hpf, hkp⟩⟩
  exact hg q (mem_points_of_mem_polygon hm hf hq)

/-- **The vertices of a cell surround the mean of its face centers.** -/
theorem surrounds_apex :
    Surrounds (m.pointsOfCell c) (Cone.apex ((m.cellFaces.getD c []).map m.face)) := by
  have hne : (m.cellFaces.getD c []).map m.face ≠ [] :=
    mt List.map_eq_nil_iff.1 (cellFaces_ne_nil hm hc)
  rw [Cone.apex_eq_weightedMean]
  refine surrounds_weightedMean (fun _ _ => zero_le_one) (sum_ones_pos hne) ?_ ?_
  · intro face hface
    obtain ⟨f, hf, rfl⟩ := List.mem_map.1 hface
    exact inHull_faceCenter hm hc hf
  · intro g k hg hlt
    obtain ⟨f, hf, hkf⟩ := exists_lt_dot_faceCenter hm hc hg hlt
    exact ⟨m.face f, List.mem_map_of_mem hf, zero_lt_one, hkf⟩

/-! ## Orientations -/

/-- A face that has the whole cell below its plane is oriented outwards. -/
theorem faceSign_eq_one (hf : f ∈ m.cellFaces.getD c [])
    (hside : ∀ v ∈ m.cellVertices.getD c [], m.elevation f v ≤ 0)
    (hoff : ∃ v ∈ m.cellVertices.getD c [], m.elevation f v ≠ 0) : m.faceSign c f = 1 := by
  have hpos := MeshTables.height_pos_of_surrounds (surrounds_apex hm hc) hside hoff
  rw [faceSign_eq hm hc hf, Cone.sign, if_pos hpos.le]

/-- A face that has the whole cell above its plane is oriented inwards. -/
theorem faceSign_eq_neg_one (hf : f ∈ m.cellFaces.getD c [])
    (hside : ∀ v ∈ m.cellVertices.getD c [], 0 ≤ m.elevation f v)
    (hoff : ∃ v ∈ m.cellVertices.getD c [], m.elevation f v ≠ 0) : m.faceSign c f = -1 := by
  have hneg := MeshTables.height_neg_of_surrounds (surrounds_apex hm hc) hside hoff
  rw [faceSign_eq hm hc hf, Cone.sign, if_neg (not_le.2 hneg)]

end ProperCell

end Polyfield
