import Polyfield.Proofs.CacheContents
import Polyfield.Proofs.Slots
import Polyfield.Proofs.TetrahedronCell
import Polyfield.Reconstruction

/-!
# The dual faces of a regular cell

Every edge of a cell has a dual face, made of one triangle in each of the two faces at the edge,
between the edge midpoint, the face center and the cell center.  The triangles are turned along
the edge one by one; in a regular cell this turns them all to the same side of the surface
(`ConvexFace.sign_mul_dot_neg`).

* `RegularCell.sum_facePart` : the dual parts in one face, with the edge vectors, by summation by
  parts along the sides of the face;
* `RegularCell.sum_dualFaces` : the sum of the dual faces with the edge vectors is the volume
  times the identity;
* `RegularCell.dualFaces_identity` : so the vector of a cell with the fluxes of a constant
  vector is that vector.
-/

namespace Polyfield

/-! ## Tensors -/

namespace Tensor

section Definitions

variable {R : Type} [Scalar R]

instance : Zero (Tensor R) := ⟨⟨0, 0, 0⟩⟩

instance : Add (Tensor R) := ⟨fun a b => ⟨a.row0 + b.row0, a.row1 + b.row1, a.row2 + b.row2⟩⟩

/-- The tensor that takes `v` to `b · v` times `a`. -/
def outer (a b : Vec3 R) : Tensor R := ⟨a.x • b, a.y • b, a.z • b⟩

/-- A multiple of the identity. -/
def scalar (s : R) : Tensor R := ⟨⟨s, 0, 0⟩, ⟨0, s, 0⟩, ⟨0, 0, s⟩⟩

end Definitions

/-- Tensors are told apart by what they do to vectors. -/
theorem eq_of_forall_apply_eq {a b : Tensor ℝ} (h : ∀ u : Vec3 ℝ, a.apply u = b.apply u) :
    a = b := by
  have hrow : ∀ u : Vec3 ℝ, u.dot a.row0 = u.dot b.row0 ∧ u.dot a.row1 = u.dot b.row1 ∧
      u.dot a.row2 = u.dot b.row2 := by
    intro u
    have hu := h u
    simp only [apply, Vec3.mk.injEq] at hu
    simpa only [Vec3.dot_comm] using hu
  exact Tensor.ext (Vec3.eq_of_forall_dot_eq fun u => (hrow u).1)
    (Vec3.eq_of_forall_dot_eq fun u => (hrow u).2.1)
    (Vec3.eq_of_forall_dot_eq fun u => (hrow u).2.2)

theorem outer_apply (a b u : Vec3 ℝ) : (outer a b).apply u = b.dot u • a := by
  ext <;> simp only [apply, outer, Vec3.smul_dot, Vec3.smul_x, Vec3.smul_y, Vec3.smul_z] <;> ring

theorem scalar_apply (s : ℝ) (u : Vec3 ℝ) : (scalar s).apply u = s • u := by
  ext <;> simp [apply, scalar, Vec3.dot]

theorem total_apply (ts : List (Tensor ℝ)) (u : Vec3 ℝ) :
    (total ts).apply u = (ts.map fun t => t.apply u).sum := by
  have hadd : ∀ a b : Tensor ℝ, (a + b).apply u = a.apply u + b.apply u := by
    intro a b
    have hdot : ∀ v w : Vec3 ℝ, (v + w).dot u = v.dot u + w.dot u := by
      intro v w
      rw [Vec3.dot_comm, Vec3.dot_add, Vec3.dot_comm u v, Vec3.dot_comm u w]
    exact Vec3.ext (hdot _ _) (hdot _ _) (hdot _ _)
  have hfold : ∀ (ts : List (Tensor ℝ)) (a : Tensor ℝ), (ts.foldl (· + ·) a).apply u =
      a.apply u + (ts.map fun t => t.apply u).sum := by
    intro ts
    induction ts with
    | nil => simp
    | cons t ts ih =>
      intro a
      rw [List.foldl_cons, ih, hadd, List.map_cons, List.sum_cons, add_assoc]
  have hzero : (0 : Tensor ℝ).apply u = 0 :=
    Vec3.ext (Vec3.zero_dot u) (Vec3.zero_dot u) (Vec3.zero_dot u)
  rw [total, hfold, hzero, zero_add]

end Tensor

/-! ## One triangle of a dual face -/

theorem Vec3.midpoint_comm (a b : Vec3 ℝ) : midpoint b a = midpoint a b := by
  rw [midpoint_eq, midpoint_eq, add_comm]

namespace Dual

variable {c x u : Vec3 ℝ} {σ : ℝ}

/-- The dual part at an edge, times the length of the edge along a vector: the triangle is turned
against the sign that it has along the edge. -/
theorem dot_smul_facePart (hσ : σ = 1 ∨ σ = -1) {a b : Vec3 ℝ}
    (h : a ≠ b → σ * (triangleVector (Vec3.midpoint a b) c x).dot (b - a) < 0) :
    (b - a).dot u • facePart a b c x =
      (-σ * (b - a).dot u) • triangleVector (Vec3.midpoint a b) c x := by
  by_cases hab : a = b
  · subst hab
    simp
  · have hneg := h hab
    rcases hσ with rfl | rfl
    · rw [one_mul] at hneg
      rw [facePart, if_pos hneg]
      module
    · rw [facePart, if_neg (by linarith)]
      module

/-- The same for the edge of a side, which may be directed against the side. -/
theorem dot_smul_facePart_ofSide (hσ : σ = 1 ∨ σ = -1) (p : Nat → Vec3 ℝ) (s : Nat × Nat)
    (h : p s.1 ≠ p s.2 →
      σ * (triangleVector (Vec3.midpoint (p s.1) (p s.2)) c x).dot (p s.2 - p s.1) < 0) :
    (p (Edge.ofSide s).2 - p (Edge.ofSide s).1).dot u •
        facePart (p (Edge.ofSide s).1) (p (Edge.ofSide s).2) c x =
      (-σ * (p s.2 - p s.1).dot u) • triangleVector (Vec3.midpoint (p s.1) (p s.2)) c x := by
  rcases le_total s.1 s.2 with hle | hle
  · have hside : Edge.ofSide s = s := by simp [Edge.ofSide, hle]
    rw [hside]
    exact dot_smul_facePart hσ h
  · have hside : Edge.ofSide s = s.swap := by simp [Edge.ofSide, hle, Prod.swap]
    have hσ' : -σ = 1 ∨ -σ = -1 := by rcases hσ with rfl | rfl <;> simp
    have hdir : p s.1 - p s.2 = -(p s.2 - p s.1) := (neg_sub _ _).symm
    have hback := dot_smul_facePart (u := u) hσ' (a := p s.2) (b := p s.1) (c := c) (x := x)
      fun hne => by
        rw [Vec3.midpoint_comm, hdir, Vec3.dot_neg]
        linarith [h hne.symm]
    rw [hside, Prod.fst_swap, Prod.snd_swap, hback, Vec3.midpoint_comm, hdir, Vec3.neg_dot]
    module

end Dual

/-- The triangle between the midpoint of a side, the center and a point lies against the side, if
the point lies on the inner side of the face. -/
theorem ConvexFace.sign_mul_dot_neg {ps : List (Vec3 ℝ)} (h : ConvexFace ps)
    {s : Vec3 ℝ × Vec3 ℝ} (hs : s ∈ cyclicPairs ps) (hne : s.1 ≠ s.2) {x : Vec3 ℝ} {σ : ℝ}
    (hheight : 0 < σ * Cone.height x (Polygon.geometry ps)) :
    σ * (triangleVector (Vec3.midpoint s.1 s.2) (Polygon.geometry ps).center x).dot
      (s.2 - s.1) < 0 := by
  have hpos := h.triangleArea_center_pos hs hne
  have hturn : ∀ a b c : Vec3 ℝ, (triangleVector (Vec3.midpoint a b) c x).dot (b - a) =
      -(triangleVector a b c).dot (c - x) := by
    intro a b c
    simp only [triangleVector_eq, Vec3.midpoint_eq, Vec3.cross, Vec3.dot, Vec3.add_x, Vec3.add_y,
      Vec3.add_z, Vec3.sub_x, Vec3.sub_y, Vec3.sub_z, Vec3.smul_x, Vec3.smul_y, Vec3.smul_z]
    ring
  have harea := h.convexPolygon.triangleVector_eq_smul h.contains_center hs
  rw [hturn, harea, Vec3.smul_dot]
  rw [Cone.height] at hheight
  linarith [mul_pos hpos hheight]

/-! ## Vectors from fluxes -/

/-- What a cell makes of fluxes through dual faces whose edges are there. -/
theorem MeshTables.vectorOfFluxes_eq_ok {m : MeshTables ℝ} {c : Nat}
    (hedges : c < m.cellEdges.length) (hvolume : c < m.cellVolumes.length) {fluxes : List ℝ}
    (hends : ∀ e ∈ (m.cellEdges.getD c []).zip fluxes, m.HasEnds e.1) :
    m.vectorOfFluxes c fluxes =
      .ok ((((m.cellEdges.getD c []).zip fluxes).map fun e => e.2 • m.edgeVector e.1).sum /
        m.cellVolumes.getD c 0) := by
  have hstep : ∀ (acc : Vec3 ℝ), ∀ e ∈ (m.cellEdges.getD c []).zip fluxes,
      (do
        let (a, b) ← m.edgePoints e.1
        return acc + e.2 • (b - a)) = (.ok (acc + e.2 • m.edgeVector e.1) : Except Breach _) := by
    intro acc e he
    rw [edgePoints_eq_ok (hends e he)]
    rfl
  rw [MeshTables.vectorOfFluxes, fetch_getD hedges [], ok_bind]
  rw [foldlM_eq_foldl hstep, ok_bind, fetch_getD hvolume 0, ok_bind, foldl_add_eq_sum]
  rfl

/-- What a cell makes of the fluxes through its dual faces. -/
theorem MeshTables.Consistent.vectorOfFluxes {m : MeshTables ℝ} {c : Nat} (h : m.Consistent c)
    (fluxes : List ℝ) : m.vectorOfFluxes c fluxes =
      .ok ((((m.cellEdges.getD c []).zip fluxes).map fun e => e.2 • m.edgeVector e.1).sum /
        m.cellVolumes.getD c 0) :=
  MeshTables.vectorOfFluxes_eq_ok h.edges_lt h.volume_lt
    fun _ he => h.hasEnds (List.of_mem_zip he).1

theorem MeshTables.segment_measure_smul (m : MeshTables ℝ) {e : Nat}
    (h : (m.edgeVector e).norm ≠ 0) : (m.segment e).measure • (m.segment e).unit =
      m.edgeVector e := by
  show (m.edgeVector e).norm • (m.edgeVector e / (m.edgeVector e).norm) = _
  rw [Vec3.div_eq_smul, smul_smul, mul_inv_cancel₀ h, one_smul]

/-- The cache of a cell makes the same of them, if no edge has length zero. -/
theorem CellCache.vectorOfFluxes_ofTables {m : MeshTables ℝ} {c : Nat} {ks : CapabilitySet}
    (hedges : ks.contains .edgeGeometry = true)
    (hlength : ∀ e ∈ m.cellEdges.getD c [], (m.edgeVector e).norm ≠ 0) (fluxes : List ℝ) :
    (ofTables m c ks).vectorOfFluxes fluxes =
      (((m.cellEdges.getD c []).zip fluxes).map fun e => e.2 • m.edgeVector e.1).sum /
        m.cellVolumes.getD c 0 := by
  rw [vectorOfFluxes, edges_ofTables hedges, total_eq_sum, List.zip_map_left, List.map_map]
  refine congrArg (fun v : Vec3 ℝ => v / m.cellVolumes.getD c 0) ?_
  refine congrArg List.sum (List.map_congr_left fun e he => ?_)
  rw [← m.segment_measure_smul (hlength e.1 (List.of_mem_zip he).1), smul_smul]
  rfl

/-! ## The dual faces of a cell -/

/-- The part of the dual face of an edge that lies at a face of a cell. -/
def MeshTables.facePart {R : Type} [Scalar R] (m : MeshTables R) (c f e : Nat) : Vec3 R :=
  Dual.facePart (m.point (m.ends e).1) (m.point (m.ends e).2) (m.face f).center
    (m.cellCenters.getD c 0)

/-- The dual part of a cell at an edge of one of its faces. -/
def MeshTables.partAt {R : Type} [Scalar R] (m : MeshTables R) (c f e : Nat) :
    PolyhedralMesh.DualPart R :=
  ⟨e, m.ends e, Dual.halfVolume (m.point (m.ends e).1) (m.point (m.ends e).2) (m.face f).center
    (m.cellCenters.getD c 0), m.facePart c f e⟩

namespace RegularCell

variable {cells : List (List Loop)} {vertices : List (Vec3 ℝ)} {m : PolyhedralMesh ℝ} {c f : Nat}
  (hm : PolyhedralMesh.build vertices cells = .ok m) (hc : RegularCell cells m c)

include hm hc

/-- **A sum over the dual parts of a cell**, face by face and edge by edge. -/
theorem sum_map_partsOfCell {M : Type} [AddCommMonoid M] (φ : PolyhedralMesh.DualPart ℝ → M) :
    ((PolyhedralMesh.partsOfCell vertices (.ofCells cells) c).map φ).sum =
      ((m.cellFaces.getD c []).map fun f =>
        ((m.faceEdges.getD f []).map fun e => φ (m.partAt c f e)).sum).sum := by
  have hperm := (hc.proper hm).cellFaces_perm hm
  have hcenter := (hc.proper hm).cellCenters_getD hm
  rw [← Cone.cellCenter_perm ((hc.proper hm).faces_perm hm)] at hcenter
  rw [(hperm.map _).sum_eq]
  obtain ⟨-, -, rfl⟩ := PolyhedralMesh.build_eq_ok.1 hm
  rw [PolyhedralMesh.partsOfCell, PolyhedralMesh.dualParts, sum_flatMap_map]
  refine congrArg List.sum (List.map_congr_left fun f _ => ?_)
  rw [List.map_map]
  refine congrArg List.sum (List.map_congr_left fun e _ => ?_)
  simp only [Function.comp_apply, MeshTables.partAt, MeshTables.facePart, hcenter,
    PolyhedralMesh.face_assemble]
  rfl

/-- **A sum over the dual faces is a sum over their parts.** -/
theorem sum_map_dualFaces {M : Type} [AddCommMonoid M] {φ : Nat → Vec3 ℝ → M}
    (hφ : ∀ j vs, φ j (total vs) = (vs.map (φ j)).sum) :
    (((m.cellEdges.getD c []).zip (m.cellDualFaces.getD c [])).map fun e => φ e.1 e.2).sum =
      ((m.cellFaces.getD c []).map fun f =>
        ((m.faceEdges.getD f []).map fun e => φ e (m.facePart c f e)).sum).sum := by
  have hparts := sum_map_partsOfCell hm hc fun p => φ p.edge p.facePart
  refine Eq.trans ?_ hparts
  obtain ⟨-, -, rfl⟩ := PolyhedralMesh.build_eq_ok.1 hm
  rw [PolyhedralMesh.cellEdges_getD, PolyhedralMesh.cellDualFaces_getD,
    SparseRow.zip_columns_values, PolyhedralMesh.edgeRow, SparseRow.sum_map_gather φ hφ,
    List.map_map]
  rfl

/-- **The dual parts in one face**, with the edge vectors. -/
theorem sum_facePart (u : Vec3 ℝ) (hf : f ∈ m.cellFaces.getD c []) :
    ((m.faceEdges.getD f []).map fun e => (m.edgeVector e).dot u • m.facePart c f e).sum =
      (1 / 2 : ℝ) • (((m.faceSign c f : ℝ) *
          (Polygon.vectorArea (m.polygon cells f)).dot
            ((m.face f).center - m.cellCenters.getD c 0)) • u -
        ((m.faceSign c f : ℝ) * u.dot ((m.face f).center - m.cellCenters.getD c 0)) •
          Polygon.vectorArea (m.polygon cells f)) := by
  have hface := PolyhedralMesh.face_of_build hm hf
  have hσ := mul_self_eq_one_iff.1 ((hc.proper hm).faceSign_mul_self hm hf)
  have hside : ∀ s ∈ cyclicPairs ((Numbering.ofCells cells).loop f),
      (m.point (Edge.ofSide s).2 - m.point (Edge.ofSide s).1).dot u •
        Dual.facePart (m.point (Edge.ofSide s).1) (m.point (Edge.ofSide s).2) (m.face f).center
          (m.cellCenters.getD c 0) =
      -(m.faceSign c f : ℝ) • ((m.point s.2 - m.point s.1).dot u •
        triangleVector (Vec3.midpoint (m.point s.1) (m.point s.2)) (m.face f).center
          (m.cellCenters.getD c 0)) := by
    intro s hs
    rw [Dual.dot_smul_facePart_ofSide hσ m.point s, mul_smul]
    intro hne
    have hmem : (m.point s.1, m.point s.2) ∈ cyclicPairs (m.polygon cells f) := by
      rw [PolyhedralMesh.polygon, PolyhedralMesh.corners, cyclicPairs_map]
      exact List.mem_map_of_mem (f := Prod.map _ _) hs
    have hpos := height_pos hm hc hf
    rw [hface] at hpos ⊢
    exact (hc.convex f hf).sign_mul_dot_neg hmem hne hpos
  have hsum := (hc.face hf).sum_faceEdges hm hf fun e => (m.point e.2 - m.point e.1).dot u •
    Dual.facePart (m.point e.1) (m.point e.2) (m.face f).center (m.cellCenters.getD c 0)
  refine Eq.trans hsum ?_
  rw [List.map_congr_left hside, ← smul_sum_map, ← RegularFace.sum_sides_polygon (fun a b =>
    (b - a).dot u • triangleVector (Vec3.midpoint a b) (m.face f).center
      (m.cellCenters.getD c 0)), Polygon.sum_dot_smul_triangleVector_midpoint]
  module

/-- **The sum of the dual faces with the edge vectors is the volume times the identity.** -/
theorem sum_dualFaces (u : Vec3 ℝ) :
    (((m.cellEdges.getD c []).zip (m.cellDualFaces.getD c [])).map fun e =>
        (m.edgeVector e.1).dot u • e.2).sum = m.cellVolumes.getD c 0 • u := by
  have hsurface := closedSurface_volume hm hc
  have hφ : ∀ (j : Nat) (vs : List (Vec3 ℝ)), (m.edgeVector j).dot u • total vs =
      (vs.map fun v => (m.edgeVector j).dot u • v).sum := by
    intro j vs
    rw [total_eq_sum, List.smul_sum]
  have hcones : ((m.cellFaces.getD c []).map fun f => (m.faceSign c f : ℝ) *
      (Polygon.vectorArea (m.polygon cells f)).dot
        ((m.face f).center - m.cellCenters.getD c 0)).sum = 3 * m.cellVolumes.getD c 0 := by
    rw [← hsurface.sum_cones (m.cellCenters.getD c 0)]
    simp only [div_eq_mul_inv, List.sum_map_mul_right]
    ring
  rw [sum_map_dualFaces hm hc hφ, List.map_congr_left fun f hf => sum_facePart hm hc u hf,
    ← smul_sum_map, sum_map_sub, sum_map_smul, hcones, hsurface.sum_moment_sub]
  module

/-- The same sum, with the dual faces multiplied and the edge vectors added. -/
theorem sum_dualFaces_transpose (u : Vec3 ℝ) :
    (((m.cellEdges.getD c []).zip (m.cellDualFaces.getD c [])).map fun e =>
        e.2.dot u • m.edgeVector e.1).sum = m.cellVolumes.getD c 0 • u := by
  refine Vec3.eq_of_forall_dot_eq fun w => ?_
  have hw := congrArg (fun v => u.dot v) (sum_dualFaces hm hc w)
  simp only [Vec3.dot_sum, Vec3.dot_smul] at hw ⊢
  rw [Vec3.dot_comm w u, ← hw]
  refine congrArg List.sum (List.map_congr_left fun e _ => ?_)
  rw [Vec3.dot_comm w, Vec3.dot_comm u]
  ring

theorem lt_length_cellDualFaces : c < m.cellDualFaces.length := by
  have hlt := (hc.proper hm).lt_length_cellFaces hm
  obtain ⟨-, -, rfl⟩ := PolyhedralMesh.build_eq_ok.1 hm
  simpa [PolyhedralMesh.assemble] using hlt

omit hc in
theorem length_cellDualFaces :
    (m.cellDualFaces.getD c []).length = (m.cellEdges.getD c []).length := by
  obtain ⟨-, -, rfl⟩ := PolyhedralMesh.build_eq_ok.1 hm
  rw [PolyhedralMesh.cellEdges_getD, PolyhedralMesh.cellDualFaces_getD, SparseRow.length_values]

/-- The fluxes of a constant vector add up to the volume times the vector. -/
theorem sum_fluxes_div_volume (u : Vec3 ℝ) :
    (((m.cellEdges.getD c []).zip ((m.cellDualFaces.getD c []).map (·.dot u))).map
      fun e => e.2 • m.edgeVector e.1).sum / m.cellVolumes.getD c 0 = u := by
  have hsum := sum_dualFaces_transpose hm hc u
  rw [List.zip_map_right, List.map_map]
  refine Eq.trans (congrArg (fun v : Vec3 ℝ => v / m.cellVolumes.getD c 0) hsum) ?_
  rw [Vec3.div_eq_smul, smul_smul, inv_mul_cancel₀ (volume_pos hm hc).ne', one_smul]

/-- **Dual face identity.**  The dual faces of a regular cell with its edge vectors add up to the
volume times the identity, and so the vector of the cell that has the fluxes of a constant vector
is that vector. -/
theorem dualFaces_identity :
    ∃ (duals : List (Vec3 ℝ)) (ends : List (Vec3 ℝ × Vec3 ℝ)) (volume : ℝ),
      fetch m.cellDualFaces c = .ok duals ∧
      (fetch m.cellEdges c >>= fun edges => edges.mapM m.edgePoints) = .ok ends ∧
      fetch m.cellVolumes c = .ok volume ∧ duals.length = ends.length ∧
      total (List.zipWith (fun d e => Tensor.outer d (e.2 - e.1)) duals ends) =
        Tensor.scalar volume ∧
      ∀ (u : Vec3 ℝ) (buf : Buffer ℝ), 3 ≤ buf.length →
        m.writeVectorOfFluxes c (duals.map (·.dot u)) buf = .ok (u.toList ++ buf.drop 3) ∧
        ((∀ e ∈ ends, (e.2 - e.1).norm ≠ 0) →
          ∀ ks : List Capability, (CapabilitySet.ofList ks).contains .edgeGeometry = true →
            ∃ cm, CellCache.build m.toMeshTables c (.ofList ks) = .ok cm ∧
              cm.writeVectorOfFluxes (duals.map (·.dot u)) buf = .ok (u.toList ++ buf.drop 3)) := by
  have hcons := PolyhedralMesh.consistent_of_build hm hc.lt
  have hlen := @length_cellDualFaces _ _ _ c hm
  refine ⟨m.cellDualFaces.getD c [], (m.cellEdges.getD c []).map fun e =>
    (m.point (m.ends e).1, m.point (m.ends e).2), m.cellVolumes.getD c 0, ?_, ?_,
    fetch_getD hcons.volume_lt 0, ?_, ?_, ?_⟩
  · exact fetch_getD (lt_length_cellDualFaces hm hc) []
  · rw [fetch_getD hcons.edges_lt [], ok_bind]
    exact mapM_eq_map fun e he => hcons.edgePoints he
  · rw [hlen, List.length_map]
  · refine Tensor.eq_of_forall_apply_eq fun u => ?_
    rw [Tensor.total_apply, Tensor.scalar_apply, ← sum_dualFaces hm hc u, List.zipWith_map_right,
      List.map_zipWith, List.zipWith_comm, ← List.map_uncurry_zip_eq_zipWith]
    refine congrArg List.sum (List.map_congr_left fun e _ => ?_)
    exact Tensor.outer_apply _ _ _
  · intro u buf hbuf
    constructor
    · rw [MeshTables.writeVectorOfFluxes, hcons.vectorOfFluxes, sum_fluxes_div_volume hm hc,
        ok_bind]
      exact overwriteFirst_eq_ok hbuf
    · intro hends ks hks
      have hlength : ∀ e ∈ m.cellEdges.getD c [], (m.edgeVector e).norm ≠ 0 := fun e he =>
        hends _ (List.mem_map_of_mem he)
      refine ⟨_, CellCache.build_eq_ofTables hcons (CapabilitySet.closed_ofList ks), ?_⟩
      have hneeds : (CellCache.ofTables m.toMeshTables c (.ofList ks)).requires [.edgeGeometry] =
          .ok () := CellCache.requires_eq_ok.2 fun k hk => by
        rw [List.mem_singleton.1 hk]
        exact hks
      rw [CellCache.writeVectorOfFluxes, hneeds, ok_bind,
        CellCache.vectorOfFluxes_ofTables hks hlength, sum_fluxes_div_volume hm hc]
      exact overwriteFirst_eq_ok hbuf

end RegularCell

/-- In the unit tetrahedron the fluxes of a constant vector lead back to it. -/
theorem dualFaces_identity_unitMesh :
    ∃ duals, fetch Tetrahedron.unitMesh.cellDualFaces 0 = .ok duals ∧
      Tetrahedron.unitMesh.writeVectorOfFluxes 0 (duals.map (·.dot ⟨1, 2, 3⟩)) [0, 0, 0, 7] =
        .ok [1, 2, 3, 7] := by
  obtain ⟨duals, _, _, hduals, -, -, -, -, hexact⟩ := RegularCell.dualFaces_identity
    Tetrahedron.build_unitMesh Tetrahedron.regularCell_unitMesh
  exact ⟨duals, hduals, (hexact ⟨1, 2, 3⟩ [0, 0, 0, 7] (by simp)).1⟩

end Polyfield
