import Polyfield.Proofs.CellOrientation
import Polyfield.Proofs.ClosedSurface
import Polyfield.Proofs.MeshNumbering

/-!
# Regular cells

A cell of a new mesh is regular if it lists every face once, its faces are planar convex polygons
of positive area, the plane of every face has the whole cell on one side, and the orientations of
the faces agree along every edge (`RegularCell`).  No cell is checked for this when a mesh is
built; all exact statements about the quantities of a cell assume it.

* `RegularFace.hasSides` : the edges of a regular face are the sides of its polygon;
* `RegularCell.closedSurface` : the faces make a closed surface;
* `RegularCell.height_pos` : the cell center and the common apex of the cones lie on the inner
  side of every face;
* `RegularCell.volume_eq`, `RegularCell.volume_pos` : the stored volume is the one that the
  surface encloses, and positive;
* `RegularCell.sum_signedConeMoments` : the stored center is the barycenter of the cones over the
  faces, whatever their common apex.
-/

namespace Polyfield

/-! ## Faces -/

/-- The sides of a polygon, in any order and of any directions. -/
def Polygon.HasSides (ps : List (Vec3 ℝ)) (sides : List (Vec3 ℝ × Vec3 ℝ)) : Prop :=
  (sides.map fun s => s(s.1, s.2)).Perm ((cyclicPairs ps).map fun s => s(s.1, s.2))

/-- A sum over the sides of a polygon does not depend on their order, nor on their directions if
its terms do not. -/
theorem Polygon.HasSides.sum_eq {M : Type} [AddCommMonoid M] {ps : List (Vec3 ℝ)}
    {sides : List (Vec3 ℝ × Vec3 ℝ)} (h : HasSides ps sides) {G : Vec3 ℝ → Vec3 ℝ → M}
    (hG : ∀ a b, G a b = G b a) :
    (sides.map fun s => G s.1 s.2).sum = ((cyclicPairs ps).map fun s => G s.1 s.2).sum := by
  have hsum := (h.map (Sym2.lift ⟨G, hG⟩)).sum_eq
  rwa [List.map_map, List.map_map] at hsum

/-- A planar convex face of distinct vertices and positive area. -/
structure RegularFace (cells : List (List Loop)) (m : PolyhedralMesh ℝ) (f : Nat) : Prop where
  nodup_loop : ((Numbering.ofCells cells).loop f).Nodup
  convex : ConvexFace (m.polygon cells f)

namespace RegularFace

variable {cells : List (List Loop)} {vertices : List (Vec3 ℝ)} {m : PolyhedralMesh ℝ} {c f : Nat}
  (hm : PolyhedralMesh.build vertices cells = .ok m) (hf : f ∈ m.cellFaces.getD c [])

include hm hf

theorem loop_mem : (Numbering.ofCells cells).loop f ∈ (Numbering.ofCells cells).loops :=
  Numbering.loop_mem_of_mem_facesOfCell ((PolyhedralMesh.mem_facesOfCell_of_build hm).1 hf)

theorem three_le_length_loop : 3 ≤ ((Numbering.ofCells cells).loop f).length :=
  Numbering.three_le_length_of_mem_loops (PolyhedralMesh.build_eq_ok.1 hm).1 (loop_mem hm hf)

/-- The edges of a face are those of the sides of its loop. -/
theorem ends_perm (hface : RegularFace cells m f) : ((m.faceEdges.getD f []).map m.ends).Perm
    ((cyclicPairs ((Numbering.ofCells cells).loop f)).map Edge.ofSide) := by
  have hl := loop_mem hm hf
  have hlen := three_le_length_loop hm hf
  have hnd := hface.nodup_loop
  obtain ⟨-, -, rfl⟩ := PolyhedralMesh.build_eq_ok.1 hm
  refine ((PolyhedralMesh.faceEdges_perm hl hnd hlen).map _).trans (.of_eq ?_)
  rw [List.map_map]
  exact List.map_congr_left fun s hs => Numbering.ends_edgeId (Numbering.ofSide_mem_edges hl hs)

/-- A sum over the edges of a face is a sum over the sides of its loop. -/
theorem sum_faceEdges {M : Type} [AddCommMonoid M] (hface : RegularFace cells m f)
    (F : Edge → M) : ((m.faceEdges.getD f []).map fun e => F (m.ends e)).sum =
      ((cyclicPairs ((Numbering.ofCells cells).loop f)).map fun s => F (Edge.ofSide s)).sum := by
  have hsum := ((ends_perm hm hf hface).map F).sum_eq
  rwa [List.map_map, List.map_map] at hsum

omit hm hf in
/-- The sides of a face by the numbers of their ends. -/
theorem sum_sides_polygon {M : Type} [AddCommMonoid M] (G : Vec3 ℝ → Vec3 ℝ → M) (f : Nat) :
    ((cyclicPairs (m.polygon cells f)).map fun s => G s.1 s.2).sum =
      ((cyclicPairs ((Numbering.ofCells cells).loop f)).map fun s =>
        G (m.point s.1) (m.point s.2)).sum := by
  rw [PolyhedralMesh.polygon, PolyhedralMesh.corners, cyclicPairs_map, List.map_map]
  rfl

/-- **The edges of a face are the sides of its polygon.** -/
theorem hasSides (hface : RegularFace cells m f) : Polygon.HasSides (m.polygon cells f)
    ((m.faceEdges.getD f []).map fun e => (m.point (m.ends e).1, m.point (m.ends e).2)) := by
  have hpoints := ((ends_perm hm hf hface).map Edge.pair).map (Sym2.map m.point)
  rw [Polygon.HasSides, PolyhedralMesh.polygon, PolyhedralMesh.corners, cyclicPairs_map,
    List.map_map, List.map_map]
  simp only [List.map_map, Function.comp_def, Edge.pair_ofSide] at hpoints
  exact hpoints

/-- A sum over the edges of a face is a sum over the sides of its polygon, for functions that do
not depend on the direction of a side. -/
theorem sum_faceEdges_symm {M : Type} [AddCommMonoid M] (hface : RegularFace cells m f)
    {G : Vec3 ℝ → Vec3 ℝ → M} (hG : ∀ a b, G a b = G b a) :
    ((m.faceEdges.getD f []).map fun e =>
        G (m.point (m.ends e).1) (m.point (m.ends e).2)).sum =
      ((cyclicPairs (m.polygon cells f)).map fun s => G s.1 s.2).sum := by
  have hsum := (hasSides hm hf hface).sum_eq hG
  rwa [List.map_map] at hsum

end RegularFace

/-! ## Cells -/

/-- A closed convex cell with planar faces. -/
structure RegularCell (cells : List (List Loop)) (m : PolyhedralMesh ℝ) (c : Nat) : Prop where
  lt : c < m.cellCount
  /-- The cell lists each face once. -/
  nodup_faces : ((Numbering.ofCells cells).facesOfCell c).Nodup
  /-- The vertices of a face are distinct. -/
  nodup_loop : ∀ f ∈ m.cellFaces.getD c [], ((Numbering.ofCells cells).loop f).Nodup
  /-- The faces are planar convex polygons of positive area. -/
  convex : ∀ f ∈ m.cellFaces.getD c [], ConvexFace (m.polygon cells f)
  /-- The plane of a face has all vertices on one closed side. -/
  one_sided : ∀ f ∈ m.cellFaces.getD c [],
    (∀ v ∈ m.cellVertices.getD c [], 0 ≤ m.elevation f v) ∨
      ∀ v ∈ m.cellVertices.getD c [], m.elevation f v ≤ 0
  /-- Not all vertices lie on the plane of a face. -/
  off_plane : ∀ f ∈ m.cellFaces.getD c [],
    ∃ v ∈ m.cellVertices.getD c [], m.elevation f v ≠ 0
  /-- The faces at an edge walk along it in opposite directions. -/
  closed : ∀ e ∈ m.cellEdges.getD c [],
    ((m.cellFaces.getD c []).map fun f => m.faceSign c f * m.edgeSign f e).sum = 0

namespace RegularCell

variable {cells : List (List Loop)} {vertices : List (Vec3 ℝ)} {m : PolyhedralMesh ℝ} {c f : Nat}
  (hm : PolyhedralMesh.build vertices cells = .ok m) (hc : RegularCell cells m c)

include hm hc

theorem measure_pos (hf : f ∈ m.cellFaces.getD c []) : 0 < (m.face f).measure := by
  rw [PolyhedralMesh.face_of_build hm hf]
  exact (hc.convex f hf).area_pos

theorem proper : ProperCell cells m c := ⟨hc.lt, hc.nodup_faces, fun _ => measure_pos hm hc⟩

omit hm in
/-- The faces of a regular cell are regular. -/
theorem face (hf : f ∈ m.cellFaces.getD c []) : RegularFace cells m f :=
  ⟨hc.nodup_loop f hf, hc.convex f hf⟩

/-! ## The surface of a cell -/

/-- **The sides of the faces of a regular cell cancel.** -/
theorem sidesCancel :
    SidesCancel (m.cellFaces.getD c []) (fun f => (m.faceSign c f : ℝ)) (m.polygon cells) := by
  intro G hG
  have hclosed := hc.closed
  have hnd := PolyhedralMesh.nodup_cellEdges hm c
  have hloop := fun f (hf : f ∈ m.cellFaces.getD c []) => RegularFace.loop_mem hm hf
  obtain ⟨-, -, rfl⟩ := PolyhedralMesh.build_eq_ok.1 hm
  -- the function on vertex numbers instead of points
  let H : Nat → Nat → Vec3 ℝ := fun a b => G (vertices.getD a 0) (vertices.getD b 0)
  let n := Numbering.ofCells cells
  let m := PolyhedralMesh.assemble vertices n
  have hsides : ∀ f ∈ m.cellFaces.getD c [],
      (m.faceSign c f : ℝ) • ((cyclicPairs (m.polygon cells f)).map fun s => G s.1 s.2).sum =
        ((m.cellEdges.getD c []).map fun e =>
          (m.faceSign c f * m.edgeSign f e) • H (n.ends e).1 (n.ends e).2).sum := by
    intro f hf
    have hsub : ∀ e ∈ m.faceEdges.getD f [], e ∈ m.cellEdges.getD c [] := fun e he =>
      PolyhedralMesh.mem_cellEdges.2 ⟨f, PolyhedralMesh.mem_cellFaces.1 hf, he⟩
    have hsum := PolyhedralMesh.sum_sides_eq_sum_edgeSign (G := H) (fun a b => hG _ _)
      (hloop f hf) hnd hsub
    rw [PolyhedralMesh.polygon, PolyhedralMesh.corners, cyclicPairs_map, List.map_map]
    refine Eq.trans (congrArg (fun v => (m.faceSign c f : ℝ) • v) hsum) ?_
    rw [smul_sum_map]
    refine congrArg List.sum (List.map_congr_left fun e _ => ?_)
    rw [mul_smul, Int.cast_smul_eq_zsmul]
  rw [List.map_congr_left hsides, sum_map_sum_comm]
  refine List.sum_eq_zero fun v hv => ?_
  obtain ⟨e, he, rfl⟩ := List.mem_map.1 hv
  have hzero := congrArg (fun k : Int => k • H (n.ends e).1 (n.ends e).2) (hclosed e he)
  simpa only [List.sum_smul, List.map_map, Function.comp_def, zero_smul] using hzero

/-- **The faces of a regular cell make a closed surface.** -/
theorem closedSurface :
    ClosedSurface (m.cellFaces.getD c []) (fun f => (m.faceSign c f : ℝ))
      (fun f => Polygon.vectorArea (m.polygon cells f)) (fun f => (m.face f).center)
      (enclosedVolume (m.cellFaces.getD c []) (fun f => (m.faceSign c f : ℝ))
        (m.polygon cells)) := by
  have hs := ClosedSurface.ofSides hc.convex (sidesCancel hm hc)
  have hcenter : ∀ f ∈ m.cellFaces.getD c [],
      (m.face f).center = (Polygon.geometry (m.polygon cells f)).center :=
    fun f hf => by rw [PolyhedralMesh.face_of_build hm hf]
  refine ⟨hs.sum_area, fun u => ?_⟩
  rw [← hs.sum_moment u]
  refine congrArg List.sum (List.map_congr_left fun f hf => ?_)
  rw [hcenter f hf]

/-- The vector area of a face is its area times its normal. -/
theorem vectorArea_eq (hf : f ∈ m.cellFaces.getD c []) :
    Polygon.vectorArea (m.polygon cells f) = (m.face f).measure • (m.face f).unit := by
  rw [PolyhedralMesh.face_of_build hm hf]
  exact ConvexFace.vectorArea_eq _ (hc.convex f hf).area_pos

/-! ## Points inside a cell -/

/-- **A point that the vertices surround lies on the inner side of every face.** -/
theorem sign_mul_height_pos {x : Vec3 ℝ} (hx : Surrounds (m.pointsOfCell c) x)
    (hf : f ∈ m.cellFaces.getD c []) :
    0 < (m.faceSign c f : ℝ) * Cone.height x (m.face f) := by
  have hproper := hc.proper hm
  have hoff := hc.off_plane f hf
  rcases hc.one_sided f hf with hside | hside
  · have hneg := MeshTables.height_neg_of_surrounds hx hside hoff
    rw [hproper.faceSign_eq_neg_one hm hf hside hoff]
    push_cast
    linarith
  · have hpos := MeshTables.height_pos_of_surrounds hx hside hoff
    rw [hproper.faceSign_eq_one hm hf hside hoff]
    push_cast
    linarith

/-- The volume of the cone over a face, without the absolute value. -/
theorem coneVolume_eq {x : Vec3 ℝ} (hx : Surrounds (m.pointsOfCell c) x)
    (hf : f ∈ m.cellFaces.getD c []) : Cone.volume x (m.face f) =
      (m.faceSign c f : ℝ) *
        (Polygon.vectorArea (m.polygon cells f)).dot ((m.face f).center - x) / 3 := by
  have hpos := sign_mul_height_pos hm hc hx hf
  have hsq := (hc.proper hm).faceSign_mul_self hm hf
  have habs : |Cone.height x (m.face f)| = (m.faceSign c f : ℝ) * Cone.height x (m.face f) := by
    rw [← abs_of_pos hpos, abs_mul]
    rcases mul_self_eq_one_iff.1 hsq with h | h <;> simp [h]
  rw [Cone.volume, Scalar.abs_real, habs, vectorArea_eq hm hc hf, Vec3.smul_dot, Cone.height]
  push_cast
  ring

theorem coneVolume_pos {x : Vec3 ℝ} (hx : Surrounds (m.pointsOfCell c) x)
    (hf : f ∈ m.cellFaces.getD c []) : 0 < Cone.volume x (m.face f) := by
  have hpos := sign_mul_height_pos hm hc hx hf
  have hne : Cone.height x (m.face f) ≠ 0 := fun h => by simp [h] at hpos
  have harea := measure_pos hm hc hf
  exact div_pos (mul_pos (abs_pos.2 hne) harea) (by norm_num)

/-! ## Volume and barycenter -/

/-- The cones with the common apex add up to the enclosed volume, and so do those with any other
apex that the vertices surround. -/
theorem sum_coneVolume {x : Vec3 ℝ} (hx : Surrounds (m.pointsOfCell c) x) :
    ((m.cellFaces.getD c []).map fun f => Cone.volume x (m.face f)).sum =
      enclosedVolume (m.cellFaces.getD c []) (fun f => (m.faceSign c f : ℝ))
        (m.polygon cells) := by
  rw [← (closedSurface hm hc).sum_cones x]
  exact congrArg List.sum (List.map_congr_left fun f hf => coneVolume_eq hm hc hx hf)

/-- **The stored volume is the enclosed one.** -/
theorem volume_eq : m.cellVolumes.getD c 0 =
    enclosedVolume (m.cellFaces.getD c []) (fun f => (m.faceSign c f : ℝ))
      (m.polygon cells) := by
  rw [(hc.proper hm).cellVolumes_getD hm, Cone.cellVolume, total_eq_sum, List.map_map]
  exact sum_coneVolume hm hc ((hc.proper hm).surrounds_apex hm)

theorem volume_pos : 0 < m.cellVolumes.getD c 0 := by
  rw [volume_eq hm hc, ← sum_coneVolume hm hc ((hc.proper hm).surrounds_apex hm)]
  refine List.sum_pos _ (fun v hv => ?_) (by simpa using (hc.proper hm).cellFaces_ne_nil hm)
  obtain ⟨f, hf, rfl⟩ := List.mem_map.1 hv
  exact coneVolume_pos hm hc ((hc.proper hm).surrounds_apex hm) hf

/-- The closed surface with the stored volume. -/
theorem closedSurface_volume :
    ClosedSurface (m.cellFaces.getD c []) (fun f => (m.faceSign c f : ℝ))
      (fun f => Polygon.vectorArea (m.polygon cells f)) (fun f => (m.face f).center)
      (m.cellVolumes.getD c 0) := by
  rw [volume_eq hm hc]
  exact closedSurface hm hc

/-- The vertices of a regular cell surround its center. -/
theorem surrounds_center : Surrounds (m.pointsOfCell c) (m.cellCenters.getD c 0) := by
  have hapex := (hc.proper hm).surrounds_apex hm
  have hW := volume_pos hm hc
  have hdot : ∀ (g : Vec3 ℝ) (x : Vec3 ℝ) (face : EntityGeometry ℝ),
      g.dot (Cone.barycenter x face) = 3 / 4 * g.dot face.center + 1 / 4 * g.dot x := by
    intro g x face
    rw [Cone.barycenter_eq, Vec3.dot_add, Vec3.dot_smul, Vec3.dot_smul]
  rw [(hc.proper hm).cellVolumes_getD hm, Cone.cellVolume, total_eq_sum] at hW
  rw [(hc.proper hm).cellCenters_getD hm, Cone.cellCenter_eq_weightedMean]
  refine surrounds_weightedMean ?_ hW ?_ ?_
  · intro face hface
    obtain ⟨f, hf, rfl⟩ := List.mem_map.1 hface
    exact (coneVolume_pos hm hc hapex hf).le
  · intro face hface g k hg
    obtain ⟨f, hf, rfl⟩ := List.mem_map.1 hface
    have h1 := (hc.proper hm).inHull_faceCenter hm hf g k hg
    have h2 := hapex.inHull g k hg
    rw [hdot]
    linarith
  · intro g k hg hlt
    obtain ⟨f, hf, h1⟩ := (hc.proper hm).exists_lt_dot_faceCenter hm hg hlt
    have h2 := hapex.inHull g k hg
    refine ⟨m.face f, List.mem_map_of_mem hf, coneVolume_pos hm hc hapex hf, ?_⟩
    rw [hdot]
    linarith

/-- **The cell center lies on the inner side of every face.** -/
theorem height_pos (hf : f ∈ m.cellFaces.getD c []) :
    0 < (m.faceSign c f : ℝ) * Cone.height (m.cellCenters.getD c 0) (m.face f) :=
  sign_mul_height_pos hm hc (surrounds_center hm hc) hf

/-- **The stored center is the barycenter of the cones over the faces**, whatever their common
apex.  Cones that the apex sees from outside count negatively. -/
theorem sum_signedConeMoments (y : Vec3 ℝ) :
    ((m.cellFaces.getD c []).map fun f => ((m.faceSign c f : ℝ) *
        (Polygon.vectorArea (m.polygon cells f)).dot ((m.face f).center - y) / 3) •
          ((3 / 4 : ℝ) • (m.face f).center + (1 / 4 : ℝ) • y)).sum =
      m.cellVolumes.getD c 0 • m.cellCenters.getD c 0 := by
  have hapex := (hc.proper hm).surrounds_apex hm
  have hne : (((m.cellFaces.getD c []).map m.face).map (Cone.volume
      (Cone.apex ((m.cellFaces.getD c []).map m.face)))).sum ≠ 0 := by
    have hpos := volume_pos hm hc
    rw [(hc.proper hm).cellVolumes_getD hm, Cone.cellVolume, total_eq_sum] at hpos
    exact hpos.ne'
  rw [(closedSurface hm hc).sum_coneMoments y, ← (closedSurface hm hc).sum_coneMoments
    (Cone.apex ((m.cellFaces.getD c []).map m.face)), (hc.proper hm).cellVolumes_getD hm,
    (hc.proper hm).cellCenters_getD hm, Cone.cellVolume, total_eq_sum,
    Cone.cellCenter_eq_weightedMean, smul_weightedMean _ _ _ hne, List.map_map]
  refine congrArg List.sum (List.map_congr_left fun f hf => ?_)
  rw [Function.comp_apply, Cone.barycenter_eq, coneVolume_eq hm hc hapex hf]

/-- The moments of the cones with an apex that the vertices surround. -/
theorem sum_coneMoments {x : Vec3 ℝ} (hx : Surrounds (m.pointsOfCell c) x) :
    ((m.cellFaces.getD c []).map fun f => Cone.volume x (m.face f) •
        ((3 / 4 : ℝ) • (m.face f).center + (1 / 4 : ℝ) • x)).sum =
      m.cellVolumes.getD c 0 • m.cellCenters.getD c 0 := by
  rw [← sum_signedConeMoments hm hc x]
  exact congrArg List.sum (List.map_congr_left fun f hf => by rw [coneVolume_eq hm hc hx hf])

end RegularCell

end Polyfield
