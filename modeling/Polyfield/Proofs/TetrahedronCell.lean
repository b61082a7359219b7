import Polyfield.Proofs.RegularCell

/-!
# Tetrahedra are regular cells

The mesh of one tetrahedron, whatever its corners, as long as they do not lie in one plane.  It
shows that the conditions of `RegularCell` can be met, and does so for every tetrahedron:
`regularCell_tetrahedron`.
-/

namespace Polyfield

/-- The loops of the faces of a tetrahedron. -/
def tetrahedronCells : List (List Loop) := [[[0, 2, 1], [0, 1, 3], [0, 3, 2], [1, 2, 3]]]

namespace Tetrahedron

theorem numbering : Numbering.ofCells tetrahedronCells =
    { loops := [[0, 2, 1], [0, 1, 3], [0, 3, 2], [1, 2, 3]]
      edges := [(0, 2), (1, 2), (0, 1), (1, 3), (0, 3), (2, 3)]
      cellFaces := [[0, 1, 2, 3]] } := by
  cbv

theorem checkCells_eq_ok : PolyhedralMesh.checkCells 4 tetrahedronCells = .ok () := rfl

theorem signsFit : (Numbering.ofCells tetrahedronCells).signsFit = true := by
  rw [numbering]
  decide +kernel

/-- The faces at an edge walk along it in opposite directions. -/
theorem sum_walkSigns : ∀ e < 6, ([0, 1, 2, 3].map fun f =>
    signTotal (SparseRow.valuesAt e ((Numbering.ofCells tetrahedronCells).walk
      ((Numbering.ofCells tetrahedronCells).loop f)))).sum = 0 := by
  rw [numbering]
  decide

section Mesh

variable (a b c d : Vec3 ℝ)

/-- The mesh of a tetrahedron. -/
noncomputable def mesh : PolyhedralMesh ℝ :=
  .assemble [a, b, c, d] (.ofCells tetrahedronCells)

theorem build_eq_ok : PolyhedralMesh.build [a, b, c, d] tetrahedronCells = .ok (mesh a b c d) :=
  PolyhedralMesh.build_eq_ok.2 ⟨checkCells_eq_ok, signsFit, rfl⟩

theorem facesOfCell : (Numbering.ofCells tetrahedronCells).facesOfCell 0 = [0, 1, 2, 3] := by
  rw [numbering]
  rfl

/-- A face is a triangle of three corners of the tetrahedron, which has a fourth corner. -/
structure Face (f i j k o : Nat) : Prop where
  loop : (Numbering.ofCells tetrahedronCells).loop f = [i, j, k]
  nodup : [i, j, k].Nodup
  corner : ∀ v < 4, v = o ∨ v ∈ [i, j, k]
  volume : ∀ a b c d : Vec3 ℝ,
    (triangleVector ((mesh a b c d).point i) ((mesh a b c d).point j)
      ((mesh a b c d).point k)).dot ((mesh a b c d).point o - (mesh a b c d).point i) =
      -(triangleVector a b c).dot (d - a)

theorem exists_face {f : Nat} (hf : f ∈ [0, 1, 2, 3]) : ∃ i j k o, Face f i j k o := by
  have hvolume : ∀ p q r x : Vec3 ℝ, (triangleVector p q r).dot (x - p) =
      1 / 2 * (q - p).dot ((r - p).cross (x - p)) := by
    intro p q r x
    simp only [triangleVector_eq, Vec3.cross, Vec3.dot, Vec3.sub_x, Vec3.sub_y, Vec3.sub_z,
      Vec3.smul_x, Vec3.smul_y, Vec3.smul_z]
    ring
  simp only [List.mem_cons, List.not_mem_nil, or_false] at hf
  rcases hf with rfl | rfl | rfl | rfl
  · refine ⟨0, 2, 1, 3, by rw [numbering]; rfl, by decide, by decide, fun a b c d => ?_⟩
    show (triangleVector a c b).dot (d - a) = _
    rw [hvolume, hvolume]
    simp only [Vec3.cross, Vec3.dot, Vec3.sub_x, Vec3.sub_y, Vec3.sub_z]
    ring
  · refine ⟨0, 1, 3, 2, by rw [numbering]; rfl, by decide, by decide, fun a b c d => ?_⟩
    show (triangleVector a b d).dot (c - a) = _
    rw [hvolume, hvolume]
    simp only [Vec3.cross, Vec3.dot, Vec3.sub_x, Vec3.sub_y, Vec3.sub_z]
    ring
  · refine ⟨0, 3, 2, 1, by rw [numbering]; rfl, by decide, by decide, fun a b c d => ?_⟩
    show (triangleVector a d c).dot (b - a) = _
    rw [hvolume, hvolume]
    simp only [Vec3.cross, Vec3.dot, Vec3.sub_x, Vec3.sub_y, Vec3.sub_z]
    ring
  · refine ⟨1, 2, 3, 0, by rw [numbering]; rfl, by decide, by decide, fun a b c d => ?_⟩
    show (triangleVector b c d).dot (a - b) = _
    rw [hvolume, hvolume]
    simp only [Vec3.cross, Vec3.dot, Vec3.sub_x, Vec3.sub_y, Vec3.sub_z]
    ring

variable {a b c d}

theorem mem_cellFaces {f : Nat} :
    f ∈ (mesh a b c d).cellFaces.getD 0 [] ↔ f ∈ [0, 1, 2, 3] := by
  rw [PolyhedralMesh.mem_facesOfCell_of_build (build_eq_ok a b c d), facesOfCell]

theorem lt_cellCount : 0 < (mesh a b c d).cellCount := by
  simp [MeshTables.cellCount, mesh, PolyhedralMesh.assemble, numbering]

/-- The vertices of the cell are the four corners. -/
theorem mem_cellVertices {v : Nat} : v ∈ (mesh a b c d).cellVertices.getD 0 [] ↔ v < 4 := by
  constructor
  · intro hv
    exact (PolyhedralMesh.consistent_of_build (build_eq_ok a b c d) lt_cellCount).vertex_lt v hv
  · intro hv
    refine PolyhedralMesh.mem_cellVertices.2 ?_
    rw [facesOfCell, numbering]
    revert v
    decide

namespace Face

variable {f i j k o : Nat} (F : Face f i j k o)

include F

theorem polygon_eq : (mesh a b c d).polygon tetrahedronCells f =
    [(mesh a b c d).point i, (mesh a b c d).point j, (mesh a b c d).point k] := by
  rw [PolyhedralMesh.polygon, F.loop]
  rfl

theorem convexFace (h : (triangleVector a b c).dot (d - a) ≠ 0) :
    ConvexFace ((mesh a b c d).polygon tetrahedronCells f) := by
  rw [F.polygon_eq]
  refine convexFace_triangle fun hflat => h ?_
  have hvolume := F.volume a b c d
  rw [hflat, Vec3.zero_dot] at hvolume
  linarith

/-- The height of a corner over the plane of a face. -/
theorem elevation_eq (h : (triangleVector a b c).dot (d - a) ≠ 0) (hf : f ∈ [0, 1, 2, 3])
    (v : Nat) : (mesh a b c d).elevation f v =
      (triangleVector ((mesh a b c d).point i) ((mesh a b c d).point j)
        ((mesh a b c d).point k)).dot ((mesh a b c d).point v - (mesh a b c d).point i) /
          ((mesh a b c d).face f).measure := by
  have hface := F.convexFace h
  have hcorner : (mesh a b c d).point i ∈ (mesh a b c d).polygon tetrahedronCells f := by
    rw [F.polygon_eq]
    exact List.mem_cons_self
  rw [MeshTables.elevation,
    PolyhedralMesh.face_of_build (build_eq_ok a b c d) (mem_cellFaces.2 hf),
    hface.unit_dot_sub_center hcorner, F.polygon_eq, Polygon.vectorArea_triangle]

theorem elevation_corner (h : (triangleVector a b c).dot (d - a) ≠ 0) (hf : f ∈ [0, 1, 2, 3])
    {v : Nat} (hv : v ∈ [i, j, k]) : (mesh a b c d).elevation f v = 0 := by
  have hplane : ∀ p q r : Vec3 ℝ, (triangleVector p q r).dot (p - p) = 0 ∧
      (triangleVector p q r).dot (q - p) = 0 ∧ (triangleVector p q r).dot (r - p) = 0 := by
    intro p q r
    simp only [triangleVector_eq, Vec3.cross, Vec3.dot, Vec3.sub_x, Vec3.sub_y, Vec3.sub_z,
      Vec3.smul_x, Vec3.smul_y, Vec3.smul_z]
    exact ⟨by ring, by ring, by ring⟩
  obtain ⟨hi, hj, hk⟩ := hplane ((mesh a b c d).point i) ((mesh a b c d).point j)
    ((mesh a b c d).point k)
  rw [F.elevation_eq h hf]
  simp only [List.mem_cons, List.not_mem_nil, or_false] at hv
  rcases hv with rfl | rfl | rfl
  · rw [hi, zero_div]
  · rw [hj, zero_div]
  · rw [hk, zero_div]

theorem elevation_opposite (h : (triangleVector a b c).dot (d - a) ≠ 0)
    (hf : f ∈ [0, 1, 2, 3]) : (mesh a b c d).elevation f o =
      -(triangleVector a b c).dot (d - a) / ((mesh a b c d).face f).measure := by
  rw [F.elevation_eq h hf, F.volume]

theorem opposite_lt : o < 4 := by
  by_contra ho
  have hcorner : ∀ v < 4, v ∈ [i, j, k] := fun v hv =>
    (F.corner v hv).resolve_left fun hvo => ho (hvo ▸ hv)
  have h0 := hcorner 0 (by omega)
  have h1 := hcorner 1 (by omega)
  have h2 := hcorner 2 (by omega)
  have h3 := hcorner 3 (by omega)
  simp only [List.mem_cons, List.not_mem_nil, or_false] at h0 h1 h2 h3
  omega

end Face

theorem measure_pos (h : (triangleVector a b c).dot (d - a) ≠ 0) {f : Nat}
    (hf : f ∈ [0, 1, 2, 3]) : 0 < ((mesh a b c d).face f).measure := by
  obtain ⟨i, j, k, o, F⟩ := exists_face hf
  rw [PolyhedralMesh.face_of_build (build_eq_ok a b c d) (mem_cellFaces.2 hf)]
  exact (F.convexFace h).area_pos

theorem properCell (h : (triangleVector a b c).dot (d - a) ≠ 0) :
    ProperCell tetrahedronCells (mesh a b c d) 0 where
  lt := lt_cellCount
  nodup_faces := by
    rw [facesOfCell]
    decide
  measure_pos f hf := measure_pos h (mem_cellFaces.1 hf)

/-- All corners lie on one side of a face, and the opposite one off its plane. -/
theorem elevation_side (h : (triangleVector a b c).dot (d - a) ≠ 0) {f : Nat}
    (hf : f ∈ [0, 1, 2, 3]) :
    (0 < (triangleVector a b c).dot (d - a) →
      ∀ v ∈ (mesh a b c d).cellVertices.getD 0 [], (mesh a b c d).elevation f v ≤ 0) ∧
    ((triangleVector a b c).dot (d - a) < 0 →
      ∀ v ∈ (mesh a b c d).cellVertices.getD 0 [], 0 ≤ (mesh a b c d).elevation f v) ∧
    ∃ v ∈ (mesh a b c d).cellVertices.getD 0 [], (mesh a b c d).elevation f v ≠ 0 := by
  obtain ⟨i, j, k, o, F⟩ := exists_face hf
  have hmeasure := measure_pos h hf
  have hopposite := F.elevation_opposite h hf
  refine ⟨fun hpos v hv => ?_, fun hneg v hv => ?_, o, mem_cellVertices.2 F.opposite_lt, ?_⟩
  · rcases F.corner v (mem_cellVertices.1 hv) with rfl | hcorner
    · rw [hopposite]
      exact div_nonpos_of_nonpos_of_nonneg (by linarith) hmeasure.le
    · exact (F.elevation_corner h hf hcorner).le
  · rcases F.corner v (mem_cellVertices.1 hv) with rfl | hcorner
    · rw [hopposite]
      exact div_nonneg (by linarith) hmeasure.le
    · exact (F.elevation_corner h hf hcorner).ge
  · rw [hopposite]
    exact div_ne_zero (neg_ne_zero.2 h) hmeasure.ne'

/-- All faces have the same orientation. -/
theorem exists_faceSign_eq (h : (triangleVector a b c).dot (d - a) ≠ 0) :
    ∃ σ : Int, ∀ f ∈ [0, 1, 2, 3], (mesh a b c d).faceSign 0 f = σ := by
  have hm := build_eq_ok a b c d
  rcases lt_or_gt_of_ne h with hneg | hpos
  · refine ⟨-1, fun f hf => ?_⟩
    obtain ⟨-, hside, hoff⟩ := elevation_side h hf
    exact (properCell h).faceSign_eq_neg_one hm (mem_cellFaces.2 hf) (hside hneg) hoff
  · refine ⟨1, fun f hf => ?_⟩
    obtain ⟨hside, -, hoff⟩ := elevation_side h hf
    exact (properCell h).faceSign_eq_one hm (mem_cellFaces.2 hf) (hside hpos) hoff

theorem sum_signs (h : (triangleVector a b c).dot (d - a) ≠ 0) {e : Nat} (he : e < 6) :
    (((mesh a b c d).cellFaces.getD 0 []).map fun f =>
      (mesh a b c d).faceSign 0 f * (mesh a b c d).edgeSign f e).sum = 0 := by
  obtain ⟨σ, hσ⟩ := exists_faceSign_eq h
  have hperm := (properCell h).cellFaces_perm (build_eq_ok a b c d)
  rw [facesOfCell] at hperm
  have hterm : ∀ f ∈ [0, 1, 2, 3], (mesh a b c d).faceSign 0 f * (mesh a b c d).edgeSign f e =
      σ * signTotal (SparseRow.valuesAt e ((Numbering.ofCells tetrahedronCells).walk
        ((Numbering.ofCells tetrahedronCells).loop f))) := by
    intro f hf
    rw [hσ f hf, mesh, PolyhedralMesh.edgeSign_eq]
  rw [(hperm.map _).sum_eq, List.map_congr_left hterm, List.sum_map_mul_left, sum_walkSigns e he,
    mul_zero]

end Mesh

end Tetrahedron

/-- **Every tetrahedron is a regular cell**, unless its corners lie in one plane. -/
theorem regularCell_tetrahedron {a b c d : Vec3 ℝ}
    (h : (triangleVector a b c).dot (d - a) ≠ 0) :
    RegularCell tetrahedronCells (Tetrahedron.mesh a b c d) 0 where
  lt := Tetrahedron.lt_cellCount
  nodup_faces := (Tetrahedron.properCell h).nodup_faces
  nodup_loop f hf := by
    obtain ⟨i, j, k, o, F⟩ := Tetrahedron.exists_face (Tetrahedron.mem_cellFaces.1 hf)
    rw [F.loop]
    exact F.nodup
  convex f hf := by
    obtain ⟨i, j, k, o, F⟩ := Tetrahedron.exists_face (Tetrahedron.mem_cellFaces.1 hf)
    exact F.convexFace h
  one_sided f hf := by
    obtain ⟨hneg, hpos, -⟩ := Tetrahedron.elevation_side h (Tetrahedron.mem_cellFaces.1 hf)
    rcases lt_or_gt_of_ne h with hvolume | hvolume
    · exact .inl (hpos hvolume)
    · exact .inr (hneg hvolume)
  off_plane f hf := (Tetrahedron.elevation_side h (Tetrahedron.mem_cellFaces.1 hf)).2.2
  closed e he := by
    refine Tetrahedron.sum_signs h ?_
    have hlt := (PolyhedralMesh.consistent_of_build (Tetrahedron.build_eq_ok a b c d)
      Tetrahedron.lt_cellCount).edge_lt e he
    simpa [Tetrahedron.mesh, PolyhedralMesh.assemble, Tetrahedron.numbering] using hlt

namespace Tetrahedron

/-- The corners of the unit tetrahedron do not lie in one plane. -/
theorem unit_ne_zero :
    (triangleVector (0 : Vec3 ℝ) ⟨1, 0, 0⟩ ⟨0, 1, 0⟩).dot (⟨0, 0, 1⟩ - 0) ≠ 0 := by
  simp [triangleVector_eq, Vec3.cross, Vec3.dot]

/-- The mesh of the unit tetrahedron. -/
noncomputable def unitMesh : PolyhedralMesh ℝ := mesh 0 ⟨1, 0, 0⟩ ⟨0, 1, 0⟩ ⟨0, 0, 1⟩

theorem build_unitMesh : PolyhedralMesh.build [0, ⟨1, 0, 0⟩, ⟨0, 1, 0⟩, ⟨0, 0, 1⟩]
    tetrahedronCells = .ok unitMesh :=
  build_eq_ok _ _ _ _

theorem regularCell_unitMesh : RegularCell tetrahedronCells unitMesh 0 :=
  regularCell_tetrahedron unit_ne_zero

theorem cellFaces_unitMesh : unitMesh.cellFaces.getD 0 [] = [0, 1, 2, 3] := by
  rw [unitMesh, mesh, PolyhedralMesh.cellFaces_eq_mergeSort, facesOfCell]
  cbv

/-- All faces of a single cell lie on the boundary. -/
theorem boundaryFaces_unitMesh : unitMesh.boundaryFaces = [0, 1, 2, 3] := by
  rw [unitMesh, mesh, PolyhedralMesh.assemble, numbering]
  decide

end Tetrahedron

end Polyfield
