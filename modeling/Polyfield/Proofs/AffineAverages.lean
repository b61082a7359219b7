import Polyfield.Proofs.CellMeans
import Polyfield.Proofs.PieceMoments
import Polyfield.Proofs.TetrahedronCell

/-!
# Averages of affine functions

The average of an affine function over a regular cell is its value at the cell center, and its
average over a face the value at the face center, at every level.

* `RegularFace.faceMean_affine`, `RegularCell.cellMean_affine` : the means of a function;
* `RegularCell.averages_affine` : the three kinds of averages of a cell cache.
-/

namespace Polyfield

/-! ## Means of a function -/

section Function

variable {cells : List (List Loop)} {vertices : List (Vec3 ℝ)} {m : PolyhedralMesh ℝ} {c face : Nat}
  {t : ℝ} {f : SpaceTimeFunction ℝ}

/-- **The mean over a face is the value at its center.** -/
theorem RegularFace.faceMean_affine (h : RegularFace cells m face)
    (hm : PolyhedralMesh.build vertices cells = .ok m) (hface : face ∈ m.cellFaces.getD c [])
    (hmeasure : 0 < (m.face face).measure) {rule : SimplexRule ℝ 3} (hr : rule.IsCentered)
    (hf : f.IsAffineAt t) : m.faceMean t f rule face = f.components t (m.face face).center := by
  have hscale := scale_integral hmeasure.ne' (f.components t (m.face face).center)
  rw [SpaceTimeFunction.length_components] at hscale
  rw [MeshTables.faceMean, hr.foldl_addIntegral hf (h.sum_triangles_measure hm hface)
    (h.sum_triangles_moment hm hface), hscale]

/-- **The mean over a cell is the value at its center.** -/
theorem RegularCell.cellMean_affine (hm : PolyhedralMesh.build vertices cells = .ok m)
    (hc : RegularCell cells m c) {rule : SimplexRule ℝ 4} (hr : rule.IsCentered)
    (hf : f.IsAffineAt t) : m.cellMean c t f rule = f.components t (m.cellCenters.getD c 0) := by
  have hscale := scale_integral (volume_pos hm hc).ne' (f.components t (m.cellCenters.getD c 0))
  rw [SpaceTimeFunction.length_components] at hscale
  rw [MeshTables.cellMean, hr.foldl_addIntegral hf (sum_pieces_measure hm hc)
    (sum_pieces_moment hm hc), hscale]

end Function

/-! ## Exact averages -/

namespace Source

/-- The value of a constant or of a function at a time and a point. -/
def valueAt {R : Type} [Scalar R] (t : R) (x : Vec3 R) : Source R → List R
  | .constant v => v.components
  | .function f => f.components t x
  | .array _ | .field _ => []

/-- Constants, and affine functions of as many components as can be integrated. -/
def IsAffineAt (t : ℝ) : Source ℝ → Prop
  | .constant _ => True
  | .function f => (f.dim = 1 ∨ f.dim = 3 ∨ f.dim = 9) ∧ f.IsAffineAt t
  | .array _ | .field _ => False

theorem IsAffineAt.hasMeans {t : ℝ} {s : Source ℝ} (h : s.IsAffineAt t) : s.HasMeans := by
  cases s with
  | constant v => trivial
  | function f => exact h.1
  | array a => exact h
  | field a => exact h

end Source

namespace RegularCell

variable {cells : List (List Loop)} {vertices : List (Vec3 ℝ)} {m : PolyhedralMesh ℝ} {c : Nat}
  (hm : PolyhedralMesh.build vertices cells = .ok m) (hc : RegularCell cells m c)
  {t : ℝ} {s : Source ℝ} {q : Quantity ℝ}

include hm hc

theorem source_faceMean_affine (hs : s.IsAffineAt t) (level : Level) {face : Nat}
    (hface : face ∈ m.cellFaces.getD c []) :
    s.faceMean m.toMeshTables t level face = s.valueAt t (m.face face).center := by
  cases s with
  | constant v => rfl
  | function f =>
    exact (hc.face hface).faceMean_affine hm hface (measure_pos hm hc hface)
      (SimplexRule.isCentered_triangle level) hs.2
  | array a => exact hs.elim
  | field a => exact hs.elim

theorem source_cellMean_affine (hs : s.IsAffineAt t) (level : Level) :
    s.cellMean m.toMeshTables c t level = s.valueAt t (m.cellCenters.getD c 0) := by
  cases s with
  | constant v => rfl
  | function f => exact cellMean_affine hm hc (SimplexRule.isCentered_tetra level) hs.2
  | array a => exact hs.elim
  | field a => exact hs.elim

theorem cellAverage_affine (hq : q.source.IsAffineAt t) (level : Level) {buf : Buffer ℝ}
    (hbuf : q.dim ≤ buf.length) :
    (CellCache.ofTables m.toMeshTables c .all).cellAverage q t level buf =
      .ok () (q.source.valueAt t (m.cellCenters.getD c 0) ++ buf.drop q.dim) := by
  rw [CellCache.cellAverage_ofTables (PolyhedralMesh.consistent_of_build hm hc.lt) hq.hasMeans
    level hbuf, source_cellMean_affine hm hc hq level]

theorem faceAverage_affine (hq : q.source.IsAffineAt t) (level : Level) {k face : Nat}
    (hk : (m.cellFaces.getD c [])[k]? = some face) {buf : Buffer ℝ} (hbuf : q.dim ≤ buf.length) :
    (CellCache.ofTables m.toMeshTables c .all).faceAverage q k t level buf =
      .ok () (q.source.valueAt t (m.face face).center ++ buf.drop q.dim) := by
  rw [CellCache.faceAverage_ofTables (PolyhedralMesh.consistent_of_build hm hc.lt) hq.hasMeans
    level hk hbuf, source_faceMean_affine hm hc hq level (List.mem_of_getElem? hk)]

theorem allAverages_affine (hq : q.source.IsAffineAt t) (level : Level) {buf : Buffer ℝ}
    (hbuf : q.dim * ((m.cellFaces.getD c []).length + 1) ≤ buf.length) :
    (CellCache.ofTables m.toMeshTables c .all).allAverages q t level buf =
      .ok () (((m.cellFaces.getD c []).flatMap fun face =>
          q.source.valueAt t (m.face face).center) ++
        q.source.valueAt t (m.cellCenters.getD c 0) ++
        buf.drop (q.dim * ((m.cellFaces.getD c []).length + 1))) := by
  have hmeans : ∀ face ∈ m.cellFaces.getD c [], q.source.faceMean m.toMeshTables t level face =
      q.source.valueAt t (m.face face).center := fun face hface =>
    source_faceMean_affine hm hc hq level hface
  rw [CellCache.allAverages_ofTables (PolyhedralMesh.consistent_of_build hm hc.lt)
    (three_edges_of_tetra hm hc) hq.hasMeans level hbuf, source_cellMean_affine hm hc hq level,
    List.flatMap_congr hmeans]

/-- **Averages of affine functions are exact at every level**: over a regular cell and over each
of its faces they are the values at the centers. -/
theorem averages_affine :
    ∃ (cm : CellCache ℝ) (faceCenters : List (Vec3 ℝ)) (cellCenter : Vec3 ℝ),
      CellCache.build m.toMeshTables c .all = .ok cm ∧
      (do (← fetch m.cellFaces c).mapM (fetch m.faceCenters ·)) = .ok faceCenters ∧
      fetch m.cellCenters c = .ok cellCenter ∧
      ∀ (q : Quantity ℝ) (t : ℝ) (level : Level) (buf : Buffer ℝ), q.source.IsAffineAt t →
        (q.dim ≤ buf.length → cm.cellAverage q t level buf =
          .ok () (q.source.valueAt t cellCenter ++ buf.drop q.dim)) ∧
        (q.dim ≤ buf.length → ∀ k x, faceCenters[k]? = some x →
          cm.faceAverage q k t level buf =
            .ok () (q.source.valueAt t x ++ buf.drop q.dim)) ∧
        (q.dim * (faceCenters.length + 1) ≤ buf.length → cm.allAverages q t level buf =
          .ok () ((faceCenters ++ [cellCenter]).flatMap (q.source.valueAt t) ++
            buf.drop (q.dim * (faceCenters.length + 1)))) := by
  have hcons := PolyhedralMesh.consistent_of_build hm hc.lt
  refine ⟨CellCache.ofTables m.toMeshTables c .all,
    (m.cellFaces.getD c []).map fun face => (m.face face).center, m.cellCenters.getD c 0,
    CellCache.build_eq_ofTables hcons fun _ _ j _ => CapabilitySet.contains_all j, ?_,
    fetch_getD hcons.center_lt 0, fun q t level buf hq => ⟨?_, ?_, ?_⟩⟩
  · rw [fetch_getD hcons.faces_lt [], ok_bind]
    exact mapM_eq_map fun face hface => fetch_getD (hcons.face_lt face hface).1 0
  · exact cellAverage_affine hm hc hq level
  · intro hbuf k x hk
    rw [List.getElem?_map, Option.map_eq_some_iff] at hk
    obtain ⟨face, hface, rfl⟩ := hk
    exact faceAverage_affine hm hc hq level hface hbuf
  · intro hbuf
    rw [List.length_map] at hbuf ⊢
    rw [allAverages_affine hm hc hq level hbuf, List.flatMap_append, List.flatMap_map,
      List.flatMap_singleton]

end RegularCell

/-- A linear vector field over the unit tetrahedron, at the most accurate level. -/
theorem averages_affine_unitMesh :
    ∃ (cm : CellCache ℝ) (x : Vec3 ℝ),
      CellCache.build Tetrahedron.unitMesh.toMeshTables 0 .all = .ok cm ∧
      fetch Tetrahedron.unitMesh.cellCenters 0 = .ok x ∧
      cm.cellAverage ⟨.cell, .function ⟨3, fun t x => #v[x.y, 2 * x.x, t]⟩⟩ 5 .highest
        [0, 0, 0, 7] = .ok () [x.y, 2 * x.x, 5, 7] := by
  obtain ⟨cm, _, x, hbuild, -, hx, hexact⟩ := RegularCell.averages_affine
    Tetrahedron.build_unitMesh Tetrahedron.regularCell_unitMesh
  refine ⟨cm, x, hbuild, hx, ?_⟩
  have haffine : (Source.function ⟨3, fun t x => #v[x.y, 2 * x.x, t]⟩ : Source ℝ).IsAffineAt 5 := by
    refine ⟨.inr (.inl rfl), ![⟨0, 1, 0⟩, ⟨2, 0, 0⟩, 0], ![0, 0, 5], fun y i => ?_⟩
    fin_cases i <;> simp [Vec3.dot]
  exact (hexact ⟨.cell, _⟩ 5 .highest [0, 0, 0, 7] haffine).1 (by decide)

end Polyfield
