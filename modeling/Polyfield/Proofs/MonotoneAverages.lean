import Polyfield.Proofs.AffineAverages
import Polyfield.Proofs.InsideCell

/-!
# Monotone averages

At every level but the highest a rule has no negative weight.  The pieces of a regular cell and of
its faces have no negative measure either, so that averages are monotone: a function that is below
another one on the cell has the lower averages.  A constant is its own average, and so a bound on
a component of a function bounds the same component of its averages.

* `SimplexRule.IsPositive.foldl_addIntegral_mono` : integrals are monotone;
* `RegularFace.faceMean_mono`, `RegularCell.cellMean_mono` : and so are the means;
* `RegularCell.averages_bounded` : the three kinds of averages of a cell cache.

The highest level has no place here: one of its nodes has a negative weight.
-/

namespace Polyfield

/-! ## Rules of positive weights -/

namespace SimplexRule

variable {n : Nat} {rule : SimplexRule ℝ n} {f g : SpaceTimeFunction ℝ} {t : ℝ}

/-- No node has a negative weight. -/
def IsPositive (rule : SimplexRule ℝ n) : Prop := ∀ node ∈ rule.nodes, 0 ≤ node.weight

theorem isPositive_triangle {level : Level} (h : level ≠ .highest) :
    (triangle level : SimplexRule ℝ 3).IsPositive := by
  intro node hnode
  cases level with
  | highest => exact absurd rfl h
  | bary | barySubdiv =>
    obtain rfl := List.mem_singleton.1 hnode
    exact zero_le_one
  | higher =>
    have hweight : node.weight = 1 / 3 := by
      simp only [triangle, triangleThree, List.mem_cons, List.not_mem_nil, or_false] at hnode
      rcases hnode with rfl | rfl | rfl <;> simp
    rw [hweight]
    norm_num

theorem isPositive_tetra {level : Level} (h : level ≠ .highest) :
    (tetra level : SimplexRule ℝ 4).IsPositive := by
  intro node hnode
  cases level with
  | highest => exact absurd rfl h
  | bary | barySubdiv =>
    obtain rfl := List.mem_singleton.1 hnode
    exact zero_le_one
  | higher =>
    have hweight : node.weight = 1 / 4 := by
      simp only [tetra, tetraFour, List.mem_cons, List.not_mem_nil, or_false] at hnode
      rcases hnode with rfl | rfl | rfl | rfl <;> simp
    rw [hweight]
    norm_num

/-- The samples of a rule on some simplices, with the factors of their values in an integral. -/
noncomputable def integralSamples (rule : SimplexRule ℝ n) (ss : List (Simplex ℝ n)) : List (Sample ℝ) :=
  ss.flatMap fun s => (rule.samples s.corners).map fun p => ⟨s.measure * p.weight, p.point⟩

/-- An integral adds to each entry of a buffer the sum over the samples. -/
theorem foldl_addIntegral_eq_mapIdx (ss : List (Simplex ℝ n)) (buf : Buffer ℝ) :
    ss.foldl (rule.addIntegral t f) buf = buf.mapIdx fun j o =>
      o + ((rule.integralSamples ss).map fun p =>
        p.weight * (f.components t p.point).getD j 0).sum := by
  rw [← foldl_addScaled, integralSamples, List.foldl_flatMap]
  simp only [List.foldl_map]
  rfl

/-- **Integrals are monotone**, component by component. -/
theorem IsPositive.foldl_addIntegral_mono (h : rule.IsPositive) {ss : List (Simplex ℝ n)}
    (hmeasure : ∀ s ∈ ss, 0 ≤ s.measure) {j : Nat}
    (hle : ∀ x, rule.HasNode ss x →
      (f.components t x).getD j 0 ≤ (g.components t x).getD j 0) (buf : Buffer ℝ) :
    (ss.foldl (rule.addIntegral t f) buf).getD j 0 ≤
      (ss.foldl (rule.addIntegral t g) buf).getD j 0 := by
  have hsum : ((rule.integralSamples ss).map fun p =>
      p.weight * (f.components t p.point).getD j 0).sum ≤
        ((rule.integralSamples ss).map fun p =>
          p.weight * (g.components t p.point).getD j 0).sum := by
    refine List.sum_le_sum fun q hq => ?_
    obtain ⟨s, hs, hq⟩ := List.mem_flatMap.1 hq
    obtain ⟨p, hp, rfl⟩ := List.mem_map.1 hq
    have hweight : 0 ≤ p.weight := by
      obtain ⟨node, hnode, rfl⟩ := List.mem_map.1 hp
      exact h node hnode
    exact mul_le_mul_of_nonneg_left (hle _ ⟨s, hs, p, hp, rfl⟩)
      (mul_nonneg (hmeasure s hs) hweight)
  simp only [foldl_addIntegral_eq_mapIdx, List.getD_eq_getElem?_getD, List.getElem?_mapIdx]
  cases buf[j]? with
  | none => exact le_rfl
  | some o => exact add_le_add_right hsum o

end SimplexRule

/-- Lists of one length are compared entry by entry. -/
theorem forall₂_le_iff_getD {us vs : List ℝ} (hlen : us.length = vs.length) :
    List.Forall₂ (· ≤ ·) us vs ↔ ∀ j, us.getD j 0 ≤ vs.getD j 0 := by
  induction us generalizing vs with
  | nil =>
    obtain rfl := List.length_eq_zero_iff.1 hlen.symm
    simp
  | cons u us ih =>
    obtain ⟨v, vs, rfl⟩ := List.exists_cons_of_length_eq_add_one hlen.symm
    rw [List.forall₂_cons, ih (Nat.succ.inj hlen)]
    constructor
    · rintro ⟨hhead, htail⟩ (_ | j)
      · exact hhead
      · exact htail j
    · exact fun h => ⟨h 0, fun j => h (j + 1)⟩

theorem getD_scale_mono {a : ℝ} (ha : 0 ≤ a) {us vs : List ℝ} {j : Nat}
    (h : us.getD j 0 ≤ vs.getD j 0) : (scale a us).getD j 0 ≤ (scale a vs).getD j 0 := by
  have hscale : ∀ ws : List ℝ, (scale a ws).getD j 0 = ws.getD j 0 * a := fun ws =>
    getD_map_eq (f := (· * a)) (zero_mul a) ws j
  rw [hscale, hscale]
  exact mul_le_mul_of_nonneg_right h ha

/-! ## Pieces of a cell -/

section Means

variable {cells : List (List Loop)} {vertices : List (Vec3 ℝ)} {m : PolyhedralMesh ℝ} {c face : Nat}
  (hm : PolyhedralMesh.build vertices cells = .ok m) (hc : RegularCell cells m c)
  {level : Level} {f g : SpaceTimeFunction ℝ} {t : ℝ}

include hm hc

theorem RegularCell.triangles_measure_nonneg (hface : face ∈ m.cellFaces.getD c []) :
    ∀ s ∈ m.triangles face, 0 ≤ s.measure := by
  intro s hs
  by_cases hlen : (m.faceEdges.getD face []).length = 3
  · obtain ⟨e₀, e₁, e₂, hedges⟩ := List.length_eq_three.1 hlen
    rw [MeshTables.triangles_of_three hedges, List.mem_singleton] at hs
    subst hs
    exact (measure_pos hm hc hface).le
  · rw [MeshTables.triangles_of_length_ne hlen] at hs
    obtain ⟨e, -, rfl⟩ := List.mem_map.1 hs
    exact ConvexPolygon.triangleArea_nonneg _ _ _

theorem RegularCell.pieces_measure_nonneg : ∀ s ∈ m.pieces c, 0 ≤ s.measure := by
  intro s hs
  rw [MeshTables.pieces] at hs
  split at hs
  · rw [List.mem_singleton] at hs
    subst hs
    exact (volume_pos hm hc).le
  · obtain ⟨face, hface, hs⟩ := List.mem_flatMap.1 hs
    obtain ⟨triangle, htriangle, rfl⟩ := List.mem_map.1 hs
    have hheight : 0 ≤ m.faceHeight c face := by
      rw [MeshTables.faceHeight, Scalar.abs_real]
      exact abs_nonneg _
    exact mul_nonneg (div_nonneg hheight (Nat.cast_nonneg 3))
      (triangles_measure_nonneg hm hc hface triangle htriangle)

/-! ## Monotone means -/

/-- **The mean over a face is monotone**: its nodes are in the hull of the face. -/
theorem RegularCell.faceMean_mono (hlevel : level ≠ .highest)
    (hface : face ∈ m.cellFaces.getD c []) (hdim : f.dim = g.dim) {j : Nat}
    (hle : ∀ x ∈ m.faceHull cells face,
      (f.components t x).getD j 0 ≤ (g.components t x).getD j 0) :
    (m.faceMean t f (.triangle level) face).getD j 0 ≤
      (m.faceMean t g (.triangle level) face).getD j 0 := by
  have hfan := Polygon.fanArea_pos (hc.convex face hface).area_pos
  rw [MeshTables.faceMean, MeshTables.faceMean, hdim]
  refine getD_scale_mono (one_div_nonneg.2 (measure_pos hm hc hface).le) ?_
  refine (SimplexRule.isPositive_triangle hlevel).foldl_addIntegral_mono
    (triangles_measure_nonneg hm hc hface) (fun x hx => hle x ?_) _
  exact hx.mem (convex_convexHull ℝ _) (SimplexRule.isInside_triangle level) fun s hs =>
    PolyhedralMesh.triangles_mem hm hface hfan hs

/-- **The mean over a cell is monotone**: its nodes are in the hull of the cell. -/
theorem RegularCell.cellMean_mono (hlevel : level ≠ .highest) (hdim : f.dim = g.dim) {j : Nat}
    (hle : ∀ x ∈ m.cellHull c, (f.components t x).getD j 0 ≤ (g.components t x).getD j 0) :
    (m.cellMean c t f (.tetra level)).getD j 0 ≤ (m.cellMean c t g (.tetra level)).getD j 0 := by
  have hfan : ∀ face ∈ m.cellFaces.getD c [], 0 < Polygon.fanArea (m.polygon cells face) :=
    fun face hface => Polygon.fanArea_pos (hc.convex face hface).area_pos
  rw [MeshTables.cellMean, MeshTables.cellMean, hdim]
  refine getD_scale_mono (one_div_nonneg.2 (volume_pos hm hc).le) ?_
  refine (SimplexRule.isPositive_tetra hlevel).foldl_addIntegral_mono
    (pieces_measure_nonneg hm hc) (fun x hx => hle x ?_) _
  exact hx.mem (convex_convexHull ℝ _) (SimplexRule.isInside_tetra level) fun s hs =>
    PolyhedralMesh.pieces_mem hm hfan (volume_pos hm hc) hs

end Means

/-! ## Bounds -/

/-- The function of `n` components that all have one value. -/
def SpaceTimeFunction.uniform (n : Nat) (a : ℝ) : SpaceTimeFunction ℝ :=
  ⟨n, fun _ _ => Vector.replicate n a⟩

namespace SpaceTimeFunction

theorem dim_uniform (n : Nat) (a : ℝ) : (uniform n a).dim = n := rfl

theorem isAffineAt_uniform (n : Nat) (a t : ℝ) : (uniform n a).IsAffineAt t :=
  ⟨fun _ => 0, fun _ => a, fun x i => by
    simp only [Vec3.zero_dot, zero_add]
    exact Vector.getElem_replicate i.2⟩

theorem getD_components_uniform {n j : Nat} (hj : j < n) (a t : ℝ) (x : Vec3 ℝ) :
    ((uniform n a).components t x).getD j 0 = a := by
  simp [uniform, components, hj]

/-- A mean that is monotone in a component, and right for functions with one value only, keeps the
bounds of the component. -/
theorem mem_Icc_of_mono {f : SpaceTimeFunction ℝ} {S : Set (Vec3 ℝ)} {t : ℝ} {j : Nat}
    {mean : SpaceTimeFunction ℝ → ℝ} (hj : j < f.dim)
    (hmono : ∀ {g h : SpaceTimeFunction ℝ}, g.dim = h.dim →
      (∀ x ∈ S, (g.components t x).getD j 0 ≤ (h.components t x).getD j 0) → mean g ≤ mean h)
    (huniform : ∀ a, mean (uniform f.dim a) = a) {lo hi : ℝ}
    (hbound : ∀ x ∈ S, (f.components t x).getD j 0 ∈ Set.Icc lo hi) : mean f ∈ Set.Icc lo hi := by
  constructor
  · rw [← huniform lo]
    refine hmono (dim_uniform f.dim lo) fun x hx => ?_
    rw [getD_components_uniform hj]
    exact (hbound x hx).1
  · rw [← huniform hi]
    refine hmono (dim_uniform f.dim hi).symm fun x hx => ?_
    rw [getD_components_uniform hj]
    exact (hbound x hx).2

end SpaceTimeFunction

namespace RegularCell

variable {cells : List (List Loop)} {vertices : List (Vec3 ℝ)} {m : PolyhedralMesh ℝ} {c face : Nat}
  (hm : PolyhedralMesh.build vertices cells = .ok m) (hc : RegularCell cells m c)
  {level : Level} (hlevel : level ≠ .highest) {f : SpaceTimeFunction ℝ} {t : ℝ}

include hm hc hlevel

/-- **A bound on a component over a face bounds its mean.** -/
theorem faceMean_mem_Icc (hface : face ∈ m.cellFaces.getD c []) {j : Nat} (hj : j < f.dim)
    {lo hi : ℝ}
    (hbound : ∀ x ∈ m.faceHull cells face, (f.components t x).getD j 0 ∈ Set.Icc lo hi) :
    (m.faceMean t f (.triangle level) face).getD j 0 ∈ Set.Icc lo hi := by
  have hmean : ∀ a, (m.faceMean t (.uniform f.dim a) (.triangle level) face).getD j 0 = a := by
    intro a
    rw [(hc.face hface).faceMean_affine hm hface (measure_pos hm hc hface)
      (SimplexRule.isCentered_triangle level) (SpaceTimeFunction.isAffineAt_uniform f.dim a t),
      SpaceTimeFunction.getD_components_uniform hj]
  exact SpaceTimeFunction.mem_Icc_of_mono hj
    (fun hdim hle => faceMean_mono hm hc hlevel hface hdim hle) hmean hbound

/-- **A bound on a component over a cell bounds its mean.** -/
theorem cellMean_mem_Icc {j : Nat} (hj : j < f.dim) {lo hi : ℝ}
    (hbound : ∀ x ∈ m.cellHull c, (f.components t x).getD j 0 ∈ Set.Icc lo hi) :
    (m.cellMean c t f (.tetra level)).getD j 0 ∈ Set.Icc lo hi := by
  have hmean : ∀ a, (m.cellMean c t (.uniform f.dim a) (.tetra level)).getD j 0 = a := by
    intro a
    rw [cellMean_affine hm hc (SimplexRule.isCentered_tetra level)
      (SpaceTimeFunction.isAffineAt_uniform f.dim a t),
      SpaceTimeFunction.getD_components_uniform hj]
  exact SpaceTimeFunction.mem_Icc_of_mono hj
    (fun hdim hle => cellMean_mono hm hc hlevel hdim hle) hmean hbound

end RegularCell

/-! ## Averages of a cell cache -/

/-- What the averages of a function over the faces and over the cell write: one mean of the
function for each face, and one for the cell. -/
structure CellCache.Averages {R : Type} [Scalar R] (cm : CellCache R) (f : SpaceTimeFunction R)
    (t : R) (level : Level) (faceMeans : List (List R)) (cellMean : List R) : Prop where
  length_faceMeans : faceMeans.length = cm.faceCount
  length_mean : ∀ mean ∈ cellMean :: faceMeans, mean.length = f.dim
  cell : ∀ (support : Support) (buf : Buffer R), f.dim ≤ buf.length →
    cm.cellAverage ⟨support, .function f⟩ t level buf = .ok () (cellMean ++ buf.drop f.dim)
  face : ∀ (support : Support) (buf : Buffer R), f.dim ≤ buf.length →
    ∀ k mean, faceMeans[k]? = some mean →
      cm.faceAverage ⟨support, .function f⟩ k t level buf = .ok () (mean ++ buf.drop f.dim)
  all : ∀ (support : Support) (buf : Buffer R), f.dim * (cm.faceCount + 1) ≤ buf.length →
    cm.allAverages ⟨support, .function f⟩ t level buf =
      .ok () (faceMeans.flatten ++ cellMean ++ buf.drop (f.dim * (cm.faceCount + 1)))

namespace RegularCell

variable {cells : List (List Loop)} {vertices : List (Vec3 ℝ)} {m : PolyhedralMesh ℝ} {c : Nat}
  (hm : PolyhedralMesh.build vertices cells = .ok m) (hc : RegularCell cells m c)

include hm hc

/-- The averages of a function over a regular cell and its faces. -/
theorem averages {f : SpaceTimeFunction ℝ} (hdim : f.dim = 1 ∨ f.dim = 3 ∨ f.dim = 9) (t : ℝ)
    (level : Level) : (CellCache.ofTables m.toMeshTables c .all).Averages f t level
      ((m.cellFaces.getD c []).map (m.faceMean t f (.triangle level)))
      (m.cellMean c t f (.tetra level)) where
  length_faceMeans := by
    rw [List.length_map, CellCache.faceCount_ofTables (CapabilitySet.contains_all _)]
  length_mean mean hmean := by
    rcases List.mem_cons.1 hmean with rfl | hmean
    · exact Source.length_cellMean m.toMeshTables c t level (s := .function f) hdim
    · obtain ⟨face, -, rfl⟩ := List.mem_map.1 hmean
      exact Source.length_faceMean m.toMeshTables t level face (s := .function f) hdim
  cell support buf hbuf :=
    CellCache.cellAverage_ofTables (q := ⟨support, .function f⟩)
      (PolyhedralMesh.consistent_of_build hm hc.lt) hdim level hbuf
  face support buf hbuf k mean hk := by
    rw [List.getElem?_map, Option.map_eq_some_iff] at hk
    obtain ⟨face, hface, rfl⟩ := hk
    exact CellCache.faceAverage_ofTables (q := ⟨support, .function f⟩)
      (PolyhedralMesh.consistent_of_build hm hc.lt) hdim level hface hbuf
  all support buf hbuf := by
    rw [CellCache.faceCount_ofTables (CapabilitySet.contains_all _)] at hbuf ⊢
    exact CellCache.allAverages_ofTables (q := ⟨support, .function f⟩)
      (PolyhedralMesh.consistent_of_build hm hc.lt) (three_edges_of_tetra hm hc) hdim level hbuf

/-- **Averages keep bounds at every level but the highest.**  If a component of a function lies in
an interval at all points of a regular cell, so does this component of its averages over the cell
and over each face; and a function that is below another one on the cell has the lower averages. -/
theorem averages_bounded :
    ∃ cm : CellCache ℝ, CellCache.build m.toMeshTables c .all = .ok cm ∧
      ∀ level : Level, level ≠ .highest → ∀ (f : SpaceTimeFunction ℝ) (t : ℝ),
        f.dim = 1 ∨ f.dim = 3 ∨ f.dim = 9 → ∃ (faceMeans : List (List ℝ)) (cellMean : List ℝ),
          cm.Averages f t level faceMeans cellMean ∧
          (∀ (j : Nat) (lo hi : ℝ), j < f.dim →
            (∀ x ∈ m.cellHull c, (f.components t x).getD j 0 ∈ Set.Icc lo hi) →
              ∀ mean ∈ cellMean :: faceMeans, mean.getD j 0 ∈ Set.Icc lo hi) ∧
          ∀ g : SpaceTimeFunction ℝ, f.dim = g.dim →
            (∀ x ∈ m.cellHull c, List.Forall₂ (· ≤ ·) (f.components t x) (g.components t x)) →
              ∃ (faceMeans' : List (List ℝ)) (cellMean' : List ℝ),
                cm.Averages g t level faceMeans' cellMean' ∧
                List.Forall₂ (List.Forall₂ (· ≤ ·)) (cellMean :: faceMeans)
                  (cellMean' :: faceMeans') := by
  have hcons := PolyhedralMesh.consistent_of_build hm hc.lt
  refine ⟨_, CellCache.build_eq_ofTables hcons CapabilitySet.closed_all,
    fun level hlevel f t hdim => ⟨_, _, averages hm hc hdim t level, ?_, ?_⟩⟩
  · intro j lo hi hj hbound mean hmean
    rcases List.mem_cons.1 hmean with rfl | hmean
    · exact cellMean_mem_Icc hm hc hlevel hj hbound
    · obtain ⟨face, hface, rfl⟩ := List.mem_map.1 hmean
      exact faceMean_mem_Icc hm hc hlevel hface hj fun x hx =>
        hbound x (PolyhedralMesh.faceHull_subset hm hface hx)
  · intro g hg hle
    have hmeans := averages hm hc hdim t level
    have hmeans' := averages hm hc (hg ▸ hdim) t level
    have hcomponent : ∀ x ∈ m.cellHull c, ∀ j,
        (f.components t x).getD j 0 ≤ (g.components t x).getD j 0 := fun x hx =>
      (forall₂_le_iff_getD (by simp [hg])).1 (hle x hx)
    refine ⟨_, _, hmeans', .cons ?_ (List.forall₂_map_left_iff.2 (List.forall₂_map_right_iff.2
      (List.forall₂_same.2 fun face hface => ?_)))⟩
    · refine (forall₂_le_iff_getD ?_).2 fun j =>
        cellMean_mono hm hc hlevel hg fun x hx => hcomponent x hx j
      rw [hmeans.length_mean _ (by simp), hmeans'.length_mean _ (by simp), hg]
    · refine (forall₂_le_iff_getD ?_).2 fun j => faceMean_mono hm hc hlevel hface hg fun x hx =>
        hcomponent x (PolyhedralMesh.faceHull_subset hm hface hx) j
      rw [hmeans.length_mean _ (List.mem_cons_of_mem _ (List.mem_map_of_mem hface)),
        hmeans'.length_mean _ (List.mem_cons_of_mem _ (List.mem_map_of_mem hface)), hg]

end RegularCell

/-- The first coordinate lies between zero and one on the unit tetrahedron, and so does its
average. -/
theorem averages_bounded_unitMesh :
    ∃ (cm : CellCache ℝ) (mean : ℝ),
      CellCache.build Tetrahedron.unitMesh.toMeshTables 0 .all = .ok cm ∧
      cm.cellAverage ⟨.cell, .function ⟨1, fun _ x => #v[x.x]⟩⟩ 5 .higher [7, 8] =
        .ok () [mean, 8] ∧
      mean ∈ Set.Icc 0 1 := by
  obtain ⟨cm, hcm, hlevels⟩ := RegularCell.averages_bounded Tetrahedron.build_unitMesh
    Tetrahedron.regularCell_unitMesh
  obtain ⟨faceMeans, cellMean, hmeans, hbounds, -⟩ :=
    hlevels .higher (by decide) ⟨1, fun _ x => #v[x.x]⟩ 5 (.inl rfl)
  obtain ⟨mean, rfl⟩ := List.length_eq_one_iff.1 (hmeans.length_mean cellMean (by simp))
  have hmean := hbounds 0 0 1 Nat.zero_lt_one
    (fun x hx => Tetrahedron.x_mem_Icc_of_mem_cellHull hx) [mean] (by simp)
  exact ⟨cm, mean, hcm, hmeans.cell .cell [7, 8] (by decide), hmean⟩

end Polyfield
