import Mathlib.Analysis.Convex.Combination
import Polyfield.Proofs.BoundaryAverages
import Polyfield.Proofs.FluxSplitting

/-!
# Convex combinations

The points that a mesh stores and the nodes of the rules are convex combinations of vertices, with
weights that are areas, volumes or barycentric coordinates.  No polygon or cell has to be convex
for that.

* `weightedMean_mem` : a convex set holds the weighted means of its points;
* `SimplexRule.isInside_triangle`, `SimplexRule.isInside_tetra` : the nodes of all rules lie inside
  their simplex;
* `PolyhedralMesh.faceCenter_mem`, `PolyhedralMesh.cellCenter_mem` : the center of a face in the
  hull of its corners, and that of a cell in the hull of its vertices;
* `PolyhedralMesh.triangles_mem`, `PolyhedralMesh.pieces_mem` : the corners of all pieces.
-/

namespace Polyfield

/-! ## Means -/

/-- **A convex set holds the weighted means of its points.** -/
theorem weightedMean_mem {S : Set (Vec3 ℝ)} (hS : Convex ℝ S) {ι : Type} {xs : List ι} {w : ι → ℝ}
    {x : ι → Vec3 ℝ} (hw : ∀ i ∈ xs, 0 ≤ w i) (hW : 0 < (xs.map w).sum)
    (hx : ∀ i ∈ xs, x i ∈ S) : weightedMean xs w x ∈ S := by
  have hsum : ∀ {M : Type} [AddCommMonoid M] (g : ι → M),
      (xs.map g).sum = ∑ i : Fin xs.length, g xs[i] := fun g => by
    rw [← Fin.sum_univ_fun_getElem]
    rfl
  have hmean : weightedMean xs w x =
      Finset.univ.centerMass (fun i : Fin xs.length => w xs[i]) fun i => x xs[i] := by
    rw [weightedMean, Finset.centerMass, Vec3.div_eq_smul, hsum, hsum]
  rw [hmean]
  refine hS.centerMass_mem (fun i _ => hw _ (List.getElem_mem _)) ?_
    fun i _ => hx _ (List.getElem_mem _)
  rwa [← hsum]

theorem midpoint_mem {S : Set (Vec3 ℝ)} (hS : Convex ℝ S) {a b : Vec3 ℝ} (ha : a ∈ S) (hb : b ∈ S) :
    Vec3.midpoint a b ∈ S := by
  rw [Vec3.midpoint_eq, smul_add]
  exact hS ha hb (by norm_num) (by norm_num) (by norm_num)

theorem third_sum_mem {S : Set (Vec3 ℝ)} (hS : Convex ℝ S) {a b c : Vec3 ℝ} (ha : a ∈ S)
    (hb : b ∈ S) (hc : c ∈ S) : (1 / 3 : ℝ) • (a + b + c) ∈ S := by
  have hmean : weightedMean [a, b, c] (fun _ => 1) id = (1 / 3 : ℝ) • (a + b + c) := by
    simp [weightedMean, Vec3.div_eq_smul, add_assoc]
    norm_num
  rw [← hmean]
  refine weightedMean_mem hS (fun _ _ => zero_le_one) (sum_ones_pos (List.cons_ne_nil _ _)) ?_
  simp [ha, hb, hc]

/-! ## Nodes -/

/-- The barycentric coordinates of a node are weights of a mean. -/
structure Node.IsInside {n : Nat} (node : Node ℝ n) : Prop where
  nonneg : ∀ l ∈ node.barycentric.toList, 0 ≤ l
  sum_eq_one : node.barycentric.toList.sum = 1

/-- A node inside its simplex is a point of every convex set that holds the corners. -/
theorem Node.IsInside.pointIn_mem {n : Nat} {node : Node ℝ n} (h : node.IsInside)
    {S : Set (Vec3 ℝ)} (hS : Convex ℝ S) {corners : Vector (Vec3 ℝ) n}
    (hcorners : ∀ x ∈ corners.toList, x ∈ S) : node.pointIn corners ∈ S := by
  have hsum : ((List.finRange n).map fun j => node.barycentric[j]).sum = 1 := by
    rw [← h.sum_eq_one]
    refine congrArg List.sum (List.ext_getElem (by simp) fun i _ _ => ?_)
    simp
  have hmean : node.pointIn corners =
      weightedMean (List.finRange n) (fun j => node.barycentric[j]) fun j => corners[j] := by
    rw [SimplexRule.pointIn_eq, weightedMean, hsum, Vec3.div_eq_smul, inv_one, one_smul]
  rw [hmean]
  refine weightedMean_mem hS (fun j _ => h.nonneg _ ?_) ?_ fun j _ => hcorners _ ?_
  · exact Vector.mem_toList_iff.2 (Vector.getElem_mem j.isLt)
  · rw [hsum]
    exact zero_lt_one
  · exact Vector.mem_toList_iff.2 (Vector.getElem_mem j.isLt)

theorem Node.isInside_three {a b c : ℝ} (ha : 0 ≤ a) (hb : 0 ≤ b) (hc : 0 ≤ c)
    (hsum : a + b + c = 1) (w : ℝ) : Node.IsInside ⟨#v[a, b, c], w⟩ where
  nonneg := by simp [ha, hb, hc]
  sum_eq_one := by simp [← hsum, add_assoc]

theorem Node.isInside_four {a b c d : ℝ} (ha : 0 ≤ a) (hb : 0 ≤ b) (hc : 0 ≤ c) (hd : 0 ≤ d)
    (hsum : a + b + c + d = 1) (w : ℝ) : Node.IsInside ⟨#v[a, b, c, d], w⟩ where
  nonneg := by simp [ha, hb, hc, hd]
  sum_eq_one := by simp [← hsum, add_assoc]

namespace SimplexRule

/-- All nodes of a rule lie inside their simplex. -/
def IsInside {n : Nat} (rule : SimplexRule ℝ n) : Prop := ∀ node ∈ rule.nodes, node.IsInside

theorem isInside_triangleCenter : (triangleCenter : SimplexRule ℝ 3).IsInside := by
  simp only [IsInside, triangleCenter, List.forall_mem_cons, List.not_mem_nil, false_implies,
    implies_true, and_true, Scalar.ratio_real]
  refine Node.isInside_three ?_ ?_ ?_ ?_ _ <;> norm_num

theorem isInside_triangle (level : Level) : (triangle level : SimplexRule ℝ 3).IsInside := by
  cases level with
  | bary => exact isInside_triangleCenter
  | barySubdiv => exact isInside_triangleCenter
  | higher =>
    simp only [IsInside, triangle, triangleThree, List.forall_mem_cons, List.not_mem_nil,
      false_implies, implies_true, and_true, Scalar.ratio_real]
    refine ⟨Node.isInside_three ?_ ?_ ?_ ?_ _, Node.isInside_three ?_ ?_ ?_ ?_ _,
      Node.isInside_three ?_ ?_ ?_ ?_ _⟩ <;> norm_num
  | highest =>
    simp only [IsInside, triangle, triangleFour, List.forall_mem_cons, List.not_mem_nil,
      false_implies, implies_true, and_true, Scalar.ratio_real]
    refine ⟨Node.isInside_three ?_ ?_ ?_ ?_ _, Node.isInside_three ?_ ?_ ?_ ?_ _,
      Node.isInside_three ?_ ?_ ?_ ?_ _, Node.isInside_three ?_ ?_ ?_ ?_ _⟩ <;> norm_num

/-- The nodes of four equal weights lie inside a tetrahedron, as the root of five is below five. -/
theorem tetraFar_nonneg : (0 : ℝ) ≤ tetraFar := by
  have hroot : Real.sqrt 5 ≤ 5 := Real.sqrt_le_iff.2 (by norm_num)
  rw [tetraFar, Scalar.sqrt_real]
  push_cast
  linarith

theorem tetraNear_nonneg : (0 : ℝ) ≤ tetraNear := by
  rw [tetraNear, Scalar.sqrt_real]
  positivity

theorem isInside_tetraCenter : (tetraCenter : SimplexRule ℝ 4).IsInside := by
  simp only [IsInside, tetraCenter, List.forall_mem_cons, List.not_mem_nil, false_implies,
    implies_true, and_true, Scalar.ratio_real]
  refine Node.isInside_four ?_ ?_ ?_ ?_ ?_ _ <;> norm_num

theorem isInside_tetra (level : Level) : (tetra level : SimplexRule ℝ 4).IsInside := by
  cases level with
  | bary => exact isInside_tetraCenter
  | barySubdiv => exact isInside_tetraCenter
  | higher =>
    have hfar := tetraFar_nonneg
    have hnear := tetraNear_nonneg
    have hsum := tetraNear_add
    simp only [IsInside, tetra, tetraFour, List.forall_mem_cons, List.not_mem_nil, false_implies,
      implies_true, and_true]
    exact ⟨Node.isInside_four hnear hfar hfar hfar (by linarith) _,
      Node.isInside_four hfar hnear hfar hfar (by linarith) _,
      Node.isInside_four hfar hfar hnear hfar (by linarith) _,
      Node.isInside_four hfar hfar hfar hnear (by linarith) _⟩
  | highest =>
    simp only [IsInside, tetra, tetraFive, List.forall_mem_cons, List.not_mem_nil, false_implies,
      implies_true, and_true, Scalar.ratio_real]
    refine ⟨Node.isInside_four ?_ ?_ ?_ ?_ ?_ _, Node.isInside_four ?_ ?_ ?_ ?_ ?_ _,
      Node.isInside_four ?_ ?_ ?_ ?_ ?_ _, Node.isInside_four ?_ ?_ ?_ ?_ ?_ _,
      Node.isInside_four ?_ ?_ ?_ ?_ ?_ _⟩ <;> norm_num

/-- The points at which a rule evaluates lie in every convex set that holds the corners. -/
theorem IsInside.point_mem {n : Nat} {rule : SimplexRule ℝ n} (h : rule.IsInside)
    {S : Set (Vec3 ℝ)} (hS : Convex ℝ S) {corners : Vector (Vec3 ℝ) n}
    (hcorners : ∀ x ∈ corners.toList, x ∈ S) {p : Sample ℝ} (hp : p ∈ rule.samples corners) :
    p.point ∈ S := by
  obtain ⟨node, hnode, rfl⟩ := List.mem_map.1 hp
  exact (h node hnode).pointIn_mem hS hcorners

end SimplexRule

/-! ## Centers -/

namespace Polygon

variable {ps : List (Vec3 ℝ)} {S : Set (Vec3 ℝ)}

theorem apex_mem (hS : Convex ℝ S) (hps : ∀ p ∈ ps, p ∈ S) (hne : ps ≠ []) : apex ps ∈ S := by
  rw [apex_eq_weightedMean]
  exact weightedMean_mem hS (fun _ _ => zero_le_one) (sum_ones_pos hne) hps

/-- The barycenter of a polygon whose triangles have some area is a combination of its corners. -/
theorem barycenter_mem (hS : Convex ℝ S) (hps : ∀ p ∈ ps, p ∈ S) (h : 0 < fanArea ps) :
    barycenter ps ∈ S := by
  have hne : ps ≠ [] := by
    rintro rfl
    simp [fanArea, cyclicPairs, total] at h
  rw [fanArea, total_eq_sum] at h
  rw [barycenter_eq_weightedMean]
  refine weightedMean_mem hS (fun _ _ => Vec3.norm_nonneg _) h fun s hs => ?_
  exact third_sum_mem hS (hps _ (fst_mem_of_mem_cyclicPairs hs))
    (hps _ (snd_mem_of_mem_cyclicPairs hs)) (apex_mem hS hps hne)

end Polygon

namespace Cone

variable {faces : List (EntityGeometry ℝ)} {S : Set (Vec3 ℝ)}

theorem apex_mem (hS : Convex ℝ S) (hfaces : ∀ face ∈ faces, face.center ∈ S) (hne : faces ≠ []) :
    apex faces ∈ S := by
  rw [apex_eq_weightedMean]
  exact weightedMean_mem hS (fun _ _ => zero_le_one) (sum_ones_pos hne) hfaces

theorem barycenter_mem (hS : Convex ℝ S) {x : Vec3 ℝ} {face : EntityGeometry ℝ} (hx : x ∈ S)
    (hface : face.center ∈ S) : barycenter x face ∈ S := by
  rw [barycenter_eq]
  exact hS hface hx (by norm_num) (by norm_num) (by norm_num)

/-- The barycenter of a cell of some volume is a combination of its face centers. -/
theorem cellCenter_mem (hS : Convex ℝ S) (hfaces : ∀ face ∈ faces, face.center ∈ S)
    (hmeasure : ∀ face ∈ faces, 0 ≤ face.measure) (h : 0 < cellVolume faces) :
    cellCenter faces ∈ S := by
  have hne : faces ≠ [] := by
    rintro rfl
    simp [cellVolume, total] at h
  rw [cellVolume, total_eq_sum] at h
  rw [cellCenter_eq_weightedMean]
  refine weightedMean_mem hS (fun face hface => ?_) h fun face hface =>
    barycenter_mem hS (apex_mem hS hfaces hne) (hfaces face hface)
  have hnonneg := hmeasure face hface
  rw [volume, Scalar.abs_real]
  positivity

end Cone

/-! ## Hulls of faces and cells -/

/-- The convex combinations of the vertices of a cell. -/
def MeshTables.cellHull (m : MeshTables ℝ) (c : Nat) : Set (Vec3 ℝ) :=
  convexHull ℝ {p | p ∈ m.pointsOfCell c}

namespace PolyhedralMesh

/-- The convex combinations of the corners of a face. -/
def faceHull (m : PolyhedralMesh ℝ) (cells : List (List Loop)) (f : Nat) : Set (Vec3 ℝ) :=
  convexHull ℝ {p | p ∈ m.polygon cells f}

variable {cells : List (List Loop)} {vertices : List (Vec3 ℝ)} {m : PolyhedralMesh ℝ} {c f : Nat}
  (hm : build vertices cells = .ok m)

include hm

theorem faceHull_subset (hf : f ∈ m.cellFaces.getD c []) : m.faceHull cells f ⊆ m.cellHull c :=
  convexHull_mono fun _ hp => ProperCell.mem_points_of_mem_polygon hm hf hp

/-- The ends of the edges of a face are corners of the face. -/
theorem ends_mem_faceHull (hf : f ∈ m.cellFaces.getD c []) {e : Nat}
    (he : e ∈ m.faceEdges.getD f []) :
    m.point (m.ends e).1 ∈ m.faceHull cells f ∧ m.point (m.ends e).2 ∈ m.faceHull cells f := by
  obtain ⟨hfirst, hsecond⟩ := ends_mem_loop hm hf he
  have hcorner : ∀ v ∈ (Numbering.ofCells cells).loop f, m.point v ∈ m.faceHull cells f :=
    fun v hv => subset_convexHull ℝ _ (List.mem_map_of_mem hv)
  exact ⟨hcorner _ hfirst, hcorner _ hsecond⟩

/-- **The center of a face is a combination of its corners.** -/
theorem faceCenter_mem (hf : f ∈ m.cellFaces.getD c [])
    (hfan : 0 < Polygon.fanArea (m.polygon cells f)) : (m.face f).center ∈ m.faceHull cells f := by
  rw [face_of_build hm hf]
  exact Polygon.barycenter_mem (convex_convexHull ℝ _) (fun _ hp => subset_convexHull ℝ _ hp) hfan

/-- **The center of a cell is a combination of its vertices.** -/
theorem cellCenter_mem
    (hfan : ∀ f ∈ m.cellFaces.getD c [], 0 < Polygon.fanArea (m.polygon cells f))
    (hvolume : 0 < m.cellVolumes.getD c 0) : m.cellCenters.getD c 0 ∈ m.cellHull c := by
  have hcenter : ∀ f ∈ (Numbering.ofCells cells).facesOfCell c, (m.face f).center ∈ m.cellHull c ∧
      0 ≤ (m.face f).measure := by
    intro f hf
    have hf' := (mem_facesOfCell_of_build hm).2 hf
    refine ⟨faceHull_subset hm hf' (faceCenter_mem hm hf' (hfan f hf')), ?_⟩
    rw [face_of_build hm hf']
    exact Vec3.norm_nonneg _
  set hull := m.cellHull c with hhull
  have hconvex : Convex ℝ hull := convex_convexHull ℝ _
  clear_value hull
  obtain ⟨-, -, rfl⟩ := build_eq_ok.1 hm
  have hlt : c < (Numbering.ofCells cells).cellFaces.length := by
    by_contra hge
    rw [List.getD_eq_default _ _ (by simpa [assemble] using hge)] at hvolume
    exact lt_irrefl 0 hvolume
  rw [cellVolumes_getD hlt] at hvolume
  rw [cellCenters_getD hlt]
  refine Cone.cellCenter_mem hconvex ?_ ?_ hvolume
  · intro face hface
    obtain ⟨f, hf, rfl⟩ := List.mem_map.1 hface
    rw [← face_assemble]
    exact (hcenter f hf).1
  · intro face hface
    obtain ⟨f, hf, rfl⟩ := List.mem_map.1 hface
    rw [← face_assemble]
    exact (hcenter f hf).2

/-- The triangles of a face have their corners in its hull. -/
theorem triangles_mem (hf : f ∈ m.cellFaces.getD c [])
    (hfan : 0 < Polygon.fanArea (m.polygon cells f)) {s : Simplex ℝ 3} (hs : s ∈ m.triangles f) :
    ∀ x ∈ s.corners.toList, x ∈ m.faceHull cells f := by
  have hends := fun e he => ends_mem_faceHull hm hf (e := e) he
  by_cases hlen : (m.faceEdges.getD f []).length = 3
  · obtain ⟨e₀, e₁, e₂, hedges⟩ := List.length_eq_three.1 hlen
    rw [hedges] at hends
    have h₀ := hends e₀ (by simp)
    have h₁ := hends e₁ (by simp)
    have hthird : m.point (m.thirdVertex e₀ e₁) ∈ m.faceHull cells f := by
      unfold MeshTables.thirdVertex
      split
      · exact h₁.2
      · exact h₁.1
    rw [MeshTables.triangles_of_three hedges, List.mem_singleton] at hs
    subst hs
    simpa [MeshTables.triangle, Simplex.triangle] using ⟨h₀.1, h₀.2, hthird⟩
  · rw [MeshTables.triangles_of_length_ne hlen] at hs
    obtain ⟨e, he, rfl⟩ := List.mem_map.1 hs
    obtain ⟨hfirst, hsecond⟩ := hends e he
    simpa [MeshTables.sideTriangle, Simplex.triangle] using
      ⟨hfirst, hsecond, faceCenter_mem hm hf hfan⟩

/-- So do those with the center in front. -/
theorem centerFan_mem (hf : f ∈ m.cellFaces.getD c [])
    (hfan : 0 < Polygon.fanArea (m.polygon cells f)) {s : Simplex ℝ 3} (hs : s ∈ m.centerFan f) :
    ∀ x ∈ s.corners.toList, x ∈ m.faceHull cells f := by
  obtain ⟨e, he, rfl⟩ := List.mem_map.1 hs
  obtain ⟨hfirst, hsecond⟩ := ends_mem_faceHull hm hf he
  simpa [Simplex.triangle] using ⟨faceCenter_mem hm hf hfan, hfirst, hsecond⟩

/-- The tetrahedra of a cell have their corners in its hull. -/
theorem pieces_mem (hfan : ∀ f ∈ m.cellFaces.getD c [], 0 < Polygon.fanArea (m.polygon cells f))
    (hvolume : 0 < m.cellVolumes.getD c 0) {s : Simplex ℝ 4} (hs : s ∈ m.pieces c) :
    ∀ x ∈ s.corners.toList, x ∈ m.cellHull c := by
  rw [MeshTables.pieces] at hs
  split at hs
  · next htetra =>
    have hlen : (m.pointsOfCell c).length = 4 := by
      rw [MeshTables.pointsOfCell, List.length_map, MeshTables.length_of_shape_eq_tetra htetra]
    obtain ⟨p, q, r, u, hpoints⟩ := List.length_eq_four.1 hlen
    rw [List.mem_singleton] at hs
    subst hs
    intro x hx
    refine subset_convexHull ℝ _ ?_
    rw [MeshTables.wholeTetra, hpoints] at hx
    show x ∈ m.pointsOfCell c
    rw [hpoints]
    simpa [Simplex.tetra] using hx
  · obtain ⟨f, hf, hs⟩ := List.mem_flatMap.1 hs
    obtain ⟨triangle, htriangle, rfl⟩ := List.mem_map.1 hs
    intro x hx
    rw [Vector.toList_push, List.mem_append, List.mem_singleton] at hx
    rcases hx with hx | rfl
    · exact faceHull_subset hm hf (triangles_mem hm hf (hfan f hf) htriangle x hx)
    · exact cellCenter_mem hm hfan hvolume

end PolyhedralMesh

end Polyfield
