import Mathlib.Tactic.IntervalCases
import Polyfield.Proofs.DualFaces
import Polyfield.Proofs.VertexAverages

/-!
# The dual volumes of a regular cell

Every vertex of a cell owns half of each tetrahedron between one of its edges, the center of a face
at the edge and the cell center.  The tetrahedra of a face fill the cone over it, since their height
is that of the cell center; and the cones fill the cell.  So the dual volumes are weights of a mean.

* `ConvexFace.halfVolume_eq` : the volume of half a tetrahedron is a sixth of the height times the
  area of its base;
* `RegularFace.sum_halfVolume` : the tetrahedra of a face add up to its cone;
* `RegularCell.sum_dualVolumes` : the dual volumes add up to the volume;
* `RegularCell.dualVolumes_partition` : so averages of vertex values lie between them.
-/

namespace Polyfield

/-! ## Half tetrahedra -/

namespace Dual

theorem halfVolume_nonneg (a b x y : Vec3 ℝ) : 0 ≤ halfVolume a b x y := by
  unfold halfVolume tetraVolume
  exact div_nonneg (abs_nonneg _) (by norm_num)

/-- Half a tetrahedron, from the vector area of the triangle at the whole edge. -/
theorem halfVolume_eq (a b x y : Vec3 ℝ) :
    halfVolume a b x y = |(triangleVector a b x).dot (y - a)| / 6 := by
  have hdet : (Vec3.midpoint a b - a).dot ((x - a).cross (y - a)) =
      (triangleVector a b x).dot (y - a) := by
    simp only [triangleVector_eq, Vec3.midpoint_eq, Vec3.cross, Vec3.dot, Vec3.add_x, Vec3.add_y,
      Vec3.add_z, Vec3.sub_x, Vec3.sub_y, Vec3.sub_z, Vec3.smul_x, Vec3.smul_y, Vec3.smul_z]
    ring
  rw [halfVolume, tetraVolume, hdet, Scalar.abs_real, Nat.cast_ofNat]

/-- Both halves of a tetrahedron have the same volume. -/
theorem halfVolume_comm (a b x y : Vec3 ℝ) : halfVolume a b x y = halfVolume b a x y := by
  have hturn : (triangleVector b a x).dot (y - b) = -(triangleVector a b x).dot (y - a) := by
    simp only [triangleVector_eq, Vec3.cross, Vec3.dot, Vec3.sub_x, Vec3.sub_y, Vec3.sub_z,
      Vec3.smul_x, Vec3.smul_y, Vec3.smul_z]
    ring
  rw [halfVolume_eq, halfVolume_eq b a, hturn, abs_neg]

/-- It does not matter which way the edge of a side is directed. -/
theorem halfVolume_ofSide (p : Nat → Vec3 ℝ) (s : Nat × Nat) (x y : Vec3 ℝ) :
    halfVolume (p (Edge.ofSide s).1) (p (Edge.ofSide s).2) x y =
      halfVolume (p s.1) (p s.2) x y := by
  rcases le_total s.1 s.2 with h | h
  · simp only [Edge.ofSide, min_eq_left h, max_eq_right h]
  · simp only [Edge.ofSide, min_eq_right h, max_eq_left h, halfVolume_comm (p s.1)]

end Dual

/-- Half a tetrahedron over a side of a face and its center. -/
theorem ConvexFace.halfVolume_eq {ps : List (Vec3 ℝ)} (h : ConvexFace ps) {s : Vec3 ℝ × Vec3 ℝ}
    (hs : s ∈ cyclicPairs ps) (y : Vec3 ℝ) :
    Dual.halfVolume s.1 s.2 (Polygon.geometry ps).center y =
      triangleArea s.1 s.2 (Polygon.geometry ps).center *
        (|Cone.height y (Polygon.geometry ps)| / 6) := by
  have hcorner := inHull_of_mem (fst_mem_of_mem_cyclicPairs hs)
  have hplane := h.unit_dot_eq hcorner h.surrounds_center.inHull
  have hheight : (Polygon.geometry ps).unit.dot (y - s.1) =
      -Cone.height y (Polygon.geometry ps) := by
    rw [Cone.height, Vec3.dot_sub, Vec3.dot_sub, hplane]
    ring
  rw [Dual.halfVolume_eq, h.convexPolygon.triangleVector_eq_smul h.contains_center hs,
    Vec3.smul_dot, hheight, abs_mul, abs_neg,
    abs_of_nonneg (ConvexPolygon.triangleArea_nonneg _ _ _)]
  ring

/-! ## The tetrahedra of a face -/

/-- **The tetrahedra over the edges of a face add up to the cone over the face.** -/
theorem RegularFace.sum_halfVolume {cells : List (List Loop)} {vertices : List (Vec3 ℝ)}
    {m : PolyhedralMesh ℝ} {c f : Nat} (hface : RegularFace cells m f)
    (hm : PolyhedralMesh.build vertices cells = .ok m) (hf : f ∈ m.cellFaces.getD c [])
    (y : Vec3 ℝ) :
    ((m.faceEdges.getD f []).map fun e => 2 * Dual.halfVolume (m.point (m.ends e).1)
      (m.point (m.ends e).2) (m.face f).center y).sum = Cone.volume y (m.face f) := by
  have hcomm : ∀ a b : Vec3 ℝ, 2 * Dual.halfVolume a b (m.face f).center y =
      2 * Dual.halfVolume b a (m.face f).center y := by
    intro a b
    rw [Dual.halfVolume_comm]
  have hsides := sum_faceEdges_symm hm hf hface hcomm
  refine Eq.trans hsides ?_
  rw [PolyhedralMesh.face_of_build hm hf]
  have hside : ∀ s ∈ cyclicPairs (m.polygon cells f),
      2 * Dual.halfVolume s.1 s.2 (Polygon.geometry (m.polygon cells f)).center y =
        triangleArea s.1 s.2 (Polygon.geometry (m.polygon cells f)).center *
          (|Cone.height y (Polygon.geometry (m.polygon cells f))| / 3) := by
    intro s hs
    rw [hface.convex.halfVolume_eq hs]
    ring
  rw [List.map_congr_left hside, List.sum_map_mul_right, hface.convex.sum_triangleArea,
    Cone.volume, Scalar.abs_real, Nat.cast_ofNat]
  ring

/-! ## Weights -/

/-- A number between the least and the greatest of the numbers at some vertices. -/
def LiesAmong (vs : List Nat) (x : Nat → ℝ) (y : ℝ) : Prop :=
  (∃ u ∈ vs, (∀ v ∈ vs, x u ≤ x v) ∧ x u ≤ y) ∧ ∃ w ∈ vs, (∀ v ∈ vs, x v ≤ x w) ∧ y ≤ x w

/-- A mean is not less than a lower bound of the values. -/
theorem le_sum_of_weights {ps : List (Nat × ℝ)} (hpos : ∀ p ∈ ps, 0 ≤ p.2)
    (hone : (ps.map Prod.snd).sum = 1) {x : Nat → ℝ} {lo : ℝ} (hlo : ∀ p ∈ ps, lo ≤ x p.1) :
    lo ≤ (ps.map fun p => p.2 * x p.1).sum := by
  calc lo = (ps.map fun p => p.2 * lo).sum := by rw [List.sum_map_mul_right, hone, one_mul]
    _ ≤ (ps.map fun p => p.2 * x p.1).sum :=
      List.sum_le_sum fun p hp => mul_le_mul_of_nonneg_left (hlo p hp) (hpos p hp)

theorem sum_le_of_weights {ps : List (Nat × ℝ)} (hpos : ∀ p ∈ ps, 0 ≤ p.2)
    (hone : (ps.map Prod.snd).sum = 1) {x : Nat → ℝ} {hi : ℝ} (hhi : ∀ p ∈ ps, x p.1 ≤ hi) :
    (ps.map fun p => p.2 * x p.1).sum ≤ hi := by
  calc (ps.map fun p => p.2 * x p.1).sum ≤ (ps.map fun p => p.2 * hi).sum :=
      List.sum_le_sum fun p hp => mul_le_mul_of_nonneg_left (hhi p hp) (hpos p hp)
    _ = hi := by rw [List.sum_map_mul_right, hone, one_mul]

/-! ## The dual volumes of a cell -/

/-- The dual volumes of a cell are sums of volumes. -/
theorem PolyhedralMesh.dualVolume_nonneg {vertices : List (Vec3 ℝ)} {cells : List (List Loop)}
    {m : PolyhedralMesh ℝ} (hm : build vertices cells = .ok m) {c : Nat} {w : ℝ}
    (hw : w ∈ m.cellDualVolumes.getD c []) : 0 ≤ w := by
  obtain ⟨-, -, rfl⟩ := build_eq_ok.1 hm
  rw [cellDualVolumes_getD, SparseRow.values, vertexRow, SparseRow.gather, List.map_map] at hw
  obtain ⟨v, -, rfl⟩ := List.mem_map.1 hw
  rw [Function.comp_apply, total_eq_sum]
  refine List.sum_nonneg fun x hx => ?_
  obtain ⟨entry, hentry, rfl⟩ := List.mem_map.1 hx
  obtain ⟨p, hp, hentry⟩ := List.mem_flatMap.1 (List.mem_of_mem_filter hentry)
  obtain ⟨f, -, e, -, rfl⟩ := mem_partsOfCell.1 hp
  simp only [List.mem_cons, List.not_mem_nil, or_false] at hentry
  rcases hentry with rfl | rfl
  · exact Dual.halfVolume_nonneg _ _ _ _
  · exact Dual.halfVolume_nonneg _ _ _ _

theorem PolyhedralMesh.length_cellDualVolumes {vertices : List (Vec3 ℝ)} {cells : List (List Loop)}
    {m : PolyhedralMesh ℝ} (hm : build vertices cells = .ok m) (c : Nat) :
    (m.cellDualVolumes.getD c []).length = (m.cellVertices.getD c []).length := by
  obtain ⟨-, -, rfl⟩ := build_eq_ok.1 hm
  rw [cellVertices_getD, cellDualVolumes_getD, SparseRow.length_values]

namespace RegularCell

variable {cells : List (List Loop)} {vertices : List (Vec3 ℝ)} {m : PolyhedralMesh ℝ} {c : Nat}
  (hm : PolyhedralMesh.build vertices cells = .ok m) (hc : RegularCell cells m c)

include hm hc

/-- **The dual volumes add up to the volume of the cell.** -/
theorem sum_dualVolumes : (m.cellDualVolumes.getD c []).sum = m.cellVolumes.getD c 0 := by
  have hcones := sum_coneVolume hm hc (surrounds_center hm hc)
  have hparts := sum_map_partsOfCell hm hc fun p => 2 * p.halfVolume
  have hfaces : ∀ f ∈ m.cellFaces.getD c [],
      ((m.faceEdges.getD f []).map fun e => 2 * (m.partAt c f e).halfVolume).sum =
        Cone.volume (m.cellCenters.getD c 0) (m.face f) := fun f hf =>
    (hc.face hf).sum_halfVolume hm hf _
  rw [List.map_congr_left hfaces, hcones, ← volume_eq hm hc] at hparts
  rw [← hparts]
  obtain ⟨-, -, rfl⟩ := PolyhedralMesh.build_eq_ok.1 hm
  have htotal : ∀ (_ : Nat) (ws : List ℝ), total ws = (ws.map fun w => w).sum := fun _ ws => by
    rw [total_eq_sum, List.map_id']
  have hgather := SparseRow.sum_map_gather (fun _ (w : ℝ) => w) htotal
    ((PolyhedralMesh.partsOfCell vertices (.ofCells cells) c).flatMap fun p =>
      [(p.ends.1, p.halfVolume), (p.ends.2, p.halfVolume)])
  rw [PolyhedralMesh.cellDualVolumes_getD]
  refine hgather.trans ?_
  rw [sum_flatMap_map]
  refine congrArg List.sum (List.map_congr_left fun p _ => ?_)
  simp [two_mul]

/-- The shares of the vertices are weights. -/
theorem sum_vertexShares : ((m.vertexShares c).map Prod.snd).sum = 1 := by
  have hlen := PolyhedralMesh.length_cellDualVolumes hm c
  have hpos := volume_pos hm hc
  rw [MeshTables.vertexShares, List.map_snd_zip (by rw [List.length_map, hlen]),
    List.sum_map_mul_right, List.map_id', sum_dualVolumes hm hc, mul_one_div, div_self hpos.ne']

theorem vertexShare_nonneg {p : Nat × ℝ} (hp : p ∈ m.vertexShares c) : 0 ≤ p.2 := by
  obtain ⟨w, hw, hshare⟩ := List.mem_map.1 (List.of_mem_zip hp).2
  rw [← hshare]
  exact mul_nonneg (PolyhedralMesh.dualVolume_nonneg hm hw)
    (one_div_nonneg.2 (volume_pos hm hc).le)

theorem cellVertices_ne_nil : m.cellVertices.getD c [] ≠ [] := by
  intro hnil
  have hone := sum_vertexShares hm hc
  rw [MeshTables.vertexShares, hnil] at hone
  simp at hone

/-- **The mean of numbers at the vertices lies among them.** -/
theorem liesAmong_sum_vertexShares (x : Nat → ℝ) :
    LiesAmong (m.cellVertices.getD c []) x ((m.vertexShares c).map fun p => p.2 * x p.1).sum := by
  have hpos := fun p hp => vertexShare_nonneg hm hc (p := p) hp
  have hone := sum_vertexShares hm hc
  have hmem : ∀ p ∈ m.vertexShares c, p.1 ∈ m.cellVertices.getD c [] := fun p hp =>
    (List.of_mem_zip hp).1
  have hne : (m.cellVertices.getD c []).toFinset.Nonempty :=
    List.toFinset_nonempty_iff _ |>.2 (cellVertices_ne_nil hm hc)
  obtain ⟨u, hu, hleast⟩ := Finset.exists_min_image _ x hne
  obtain ⟨w, hw, hgreatest⟩ := Finset.exists_max_image _ x hne
  simp only [List.mem_toFinset] at hu hleast hw hgreatest
  constructor
  · exact ⟨u, hu, hleast, le_sum_of_weights hpos hone fun p hp => hleast p.1 (hmem p hp)⟩
  · exact ⟨w, hw, hgreatest, sum_le_of_weights hpos hone fun p hp => hgreatest p.1 (hmem p hp)⟩

/-- The mean of the same values at all vertices. -/
theorem vertexMean_const {values k : List ℝ} {stride : Nat} (hk : ∀ v ∈ m.cellVertices.getD c [],
    slice values (stride * v) (stride * (v + 1)) = .ok k) : m.vertexMean c values stride = k := by
  obtain ⟨u, hu⟩ := List.exists_mem_of_ne_nil _ (cellVertices_ne_nil hm hc)
  have hlen : k.length = stride := by
    rw [length_of_slice_eq_ok (hk u hu), Nat.mul_succ, Nat.add_sub_cancel_left]
  refine List.ext_getElem (by simp [hlen]) fun j hj hjk => ?_
  have hj : j < stride := by simpa using hj
  have hentry : ∀ v ∈ m.cellVertices.getD c [], values.getD (stride * v + j) 0 = k[j] := by
    intro v hv
    obtain ⟨-, -, hslot⟩ := slice_eq_ok.1 (hk v hv)
    rw [Nat.mul_succ, Nat.add_sub_cancel_left] at hslot
    rw [← getD_slot values stride v hj, ← hslot, List.getD_eq_getElem _ _ hjk]
  obtain ⟨⟨v, hv, -, hle⟩, w, hw, -, hge⟩ :=
    liesAmong_sum_vertexShares hm hc fun v => values.getD (stride * v + j) 0
  rw [MeshTables.getElem_vertexMean]
  refine le_antisymm ?_ ?_
  · rw [← hentry w hw]
    exact hge
  · rw [← hentry v hv]
    exact hle

/-- **The dual volumes partition the cell.**  They are not negative and add up to the volume, so
that the weights of every cache add up to one.  The averages of a vertex array, on the mesh and from
a cache, are the same, lie between the least and the greatest value at the vertices of the cell,
component by component, and reproduce values that are the same at all vertices. -/
theorem dualVolumes_partition :
    ∃ (vs : List Nat) (volumes : List ℝ) (volume : ℝ),
      fetch m.cellVertices c = .ok vs ∧ fetch m.cellDualVolumes c = .ok volumes ∧
      fetch m.cellVolumes c = .ok volume ∧ volumes.length = vs.length ∧
      (∀ w ∈ volumes, 0 ≤ w) ∧ volumes.sum = volume ∧
      (∀ ks : List Capability, (CapabilitySet.ofList ks).contains .vertexGeometry = true →
        ∃ cm, CellCache.build m.toMeshTables c (.ofList ks) = .ok cm ∧
          cm.vertexWeights.length = vs.length ∧ cm.vertexWeights.sum = 1) ∧
      ∀ (values : List ℝ) (stride : Nat), (∀ v ∈ vs, stride * (v + 1) ≤ values.length) →
        ∃ mean : List ℝ, mean.length = stride ∧
          (∀ buf : Buffer ℝ, stride ≤ buf.length →
            m.averageVertices c values stride buf = .ok (mean ++ buf.drop stride) ∧
            ∀ (ks : List Capability) (cm : CellCache ℝ),
              (CapabilitySet.ofList ks).contains .vertexGeometry = true →
              CellCache.build m.toMeshTables c (.ofList ks) = .ok cm →
                cm.averageVertices values stride buf = .ok (mean ++ buf.drop stride)) ∧
          (∀ j < stride,
            LiesAmong vs (fun v => values.getD (stride * v + j) 0) (mean.getD j 0)) ∧
          ∀ k, (∀ v ∈ vs, slice values (stride * v) (stride * (v + 1)) = .ok k) → mean = k := by
  have hcons := PolyhedralMesh.consistent_of_build hm hc.lt
  have hlen := PolyhedralMesh.length_cellDualVolumes hm c
  have hbuild := fun ks => CellCache.build_eq_ofTables hcons (CapabilitySet.closed_ofList ks)
  refine ⟨m.cellVertices.getD c [], m.cellDualVolumes.getD c [], m.cellVolumes.getD c 0,
    fetch_getD hcons.vertices_lt [], fetch_getD hcons.dualVolumes_lt [],
    fetch_getD hcons.volume_lt 0, hlen, fun w => PolyhedralMesh.dualVolume_nonneg hm,
    sum_dualVolumes hm hc, fun ks hks => ⟨_, hbuild ks, ?_, ?_⟩, fun values stride hvalues => ?_⟩
  · rw [CellCache.vertexWeights_ofTables hks, List.length_map, hlen]
  · have hone := sum_vertexShares hm hc
    rw [MeshTables.vertexShares, List.map_snd_zip (by rw [List.length_map, hlen])] at hone
    rw [CellCache.vertexWeights_ofTables hks, hone]
  · refine ⟨m.vertexMean c values stride, m.length_vertexMean c values stride,
      fun buf hbuf => ⟨hcons.averageVertices hvalues hbuf, fun ks cm hks hcm => ?_⟩,
      fun j hj => ?_, fun k => vertexMean_const hm hc⟩
    · rw [hbuild ks] at hcm
      cases hcm
      have hids := CapabilitySet.closed_ofList ks _ hks .vertexIds (by decide)
      exact CellCache.averageVertices_ofTables hids hks hvalues hbuf
    · have hlt : j < (m.vertexMean c values stride).length := by simpa using hj
      rw [List.getD_eq_getElem _ _ hlt, MeshTables.getElem_vertexMean]
      exact liesAmong_sum_vertexShares hm hc _

end RegularCell

/-- The four dual volumes of the unit tetrahedron are weights, and average the number one to one. -/
theorem dualVolumes_partition_unitMesh :
    ∃ volumes cm, fetch Tetrahedron.unitMesh.cellDualVolumes 0 = .ok volumes ∧
      (∀ w ∈ volumes, 0 ≤ w) ∧
      CellCache.build Tetrahedron.unitMesh.toMeshTables 0 (.ofList [.vertexGeometry]) = .ok cm ∧
      cm.vertexWeights.sum = 1 ∧
      Tetrahedron.unitMesh.averageVertices 0 [1, 1, 1, 1] 1 [5, 6] = .ok [1, 6] ∧
      cm.averageVertices [1, 1, 1, 1] 1 [5, 6] = .ok [1, 6] := by
  have hm := Tetrahedron.build_unitMesh
  have hcell := Tetrahedron.regularCell_unitMesh
  obtain ⟨vs, volumes, volume, hvs, hvolumes, -, -, hnonneg, -, hweights, hmeans⟩ :=
    RegularCell.dualVolumes_partition hm hcell
  have hlt : ∀ v ∈ vs, v < 4 := by
    intro v hv
    rw [← getD_of_fetch_eq_ok hvs []] at hv
    exact Tetrahedron.mem_cellVertices.1 hv
  obtain ⟨cm, hcm, -, hone⟩ := hweights [.vertexGeometry] (by decide)
  obtain ⟨mean, -, hmean, -, hconst⟩ := hmeans [1, 1, 1, 1] 1 fun v hv => by
    have hv := hlt v hv
    simp only [List.length_cons, List.length_nil]
    omega
  obtain rfl : mean = [1] := hconst [1] fun v hv => by
    have hv := hlt v hv
    interval_cases v <;> rfl
  obtain ⟨hmesh, hcache⟩ := hmean [5, 6] (by simp)
  exact ⟨volumes, cm, hvolumes, hnonneg, hcm, hone, hmesh, hcache _ cm (by decide) hcm⟩

end Polyfield
