import Polyfield.Proofs.Hull

/-!
# Convex polygons

The vector area of a closed polygon does not depend on the apex of the fan that it is summed over
(`Polygon.sum_triangleVector`), and neither does its first moment in the plane of the polygon.

A `ConvexPolygon` has its corners on the left of every side.  Then all triangles of a fan around a
point of its hull point the same way, so their areas add up as their vector areas do, and the
stored center is the barycenter of every such fan:

* `ConvexPolygon.vectorArea_eq`, `ConvexPolygon.unit_eq` : the vector area is the area times the
  normal;
* `ConvexPolygon.sum_triangleArea` : the triangles of a fan add up to the area;
* `ConvexFace.sum_triangleArea_smul` : and their centroids, so weighed, to the center;
* `convexFace_of_vectorArea`, `convexFace_triangle` : how a polygon is seen to be convex.
-/

namespace Polyfield

/-! ## Triangles -/

theorem triangleVector_eq (a b c : Vec3 ℝ) :
    triangleVector a b c = (1 / 2 : ℝ) • (b - a).cross (c - a) := by
  rw [triangleVector, Scalar.half_real]

theorem triangleVector_rotate (a b c : Vec3 ℝ) : triangleVector c a b = triangleVector a b c := by
  ext <;> simp only [triangleVector_eq, Vec3.cross, Vec3.sub_x, Vec3.sub_y, Vec3.sub_z,
    Vec3.smul_x, Vec3.smul_y, Vec3.smul_z] <;> ring

theorem triangleVector_swap (a b c : Vec3 ℝ) :
    triangleVector b a c = -triangleVector a b c := by
  ext <;> simp only [triangleVector_eq, Vec3.cross, Vec3.sub_x, Vec3.sub_y, Vec3.sub_z,
    Vec3.smul_x, Vec3.smul_y, Vec3.smul_z, Vec3.neg_x, Vec3.neg_y, Vec3.neg_z] <;> ring

@[simp] theorem triangleVector_self_left (a b : Vec3 ℝ) : triangleVector a a b = 0 := by
  simp [triangleVector_eq]

@[simp] theorem triangleVector_self_right (a b : Vec3 ℝ) : triangleVector a b b = 0 := by
  simp [triangleVector_eq]

@[simp] theorem triangleVector_self_mid (a b : Vec3 ℝ) : triangleVector a b a = 0 := by
  simp [triangleVector_eq]

/-- The area of a triangle is the length of its vector area. -/
theorem triangleArea_eq_norm (a b c : Vec3 ℝ) :
    triangleArea a b c = (triangleVector a b c).norm := by
  rw [triangleArea, triangleVector_eq, Vec3.norm_smul, Scalar.half_real, abs_of_pos (by norm_num)]

namespace Polygon

/-! ## Closed polygons -/

/-- The vector area is half the sum of the vector products along the sides. -/
theorem sum_triangleVector_eq_sum_cross (ps : List (Vec3 ℝ)) (x : Vec3 ℝ) :
    ((cyclicPairs ps).map fun s => triangleVector x s.1 s.2).sum =
      ((cyclicPairs ps).map fun s => (1 / 2 : ℝ) • s.1.cross s.2).sum := by
  refine sum_cyclicPairs_eq_of_telescope (fun p => (1 / 2 : ℝ) • p.cross x) fun s _ => ?_
  ext <;> simp only [triangleVector_eq, Vec3.cross, Vec3.add_x, Vec3.add_y, Vec3.add_z,
    Vec3.sub_x, Vec3.sub_y, Vec3.sub_z, Vec3.smul_x, Vec3.smul_y, Vec3.smul_z] <;> ring

theorem vectorArea_eq_sum_cross (ps : List (Vec3 ℝ)) :
    vectorArea ps = ((cyclicPairs ps).map fun s => (1 / 2 : ℝ) • s.1.cross s.2).sum := by
  rw [← sum_triangleVector_eq_sum_cross ps (apex ps), vectorArea, total_eq_sum]

/-- **The vector area of a fan does not depend on its apex.** -/
theorem sum_triangleVector (ps : List (Vec3 ℝ)) (x : Vec3 ℝ) :
    ((cyclicPairs ps).map fun s => triangleVector x s.1 s.2).sum = vectorArea ps := by
  rw [sum_triangleVector_eq_sum_cross, vectorArea_eq_sum_cross]

/-- What one side adds to the first moment of a polygon in a direction: it changes its sign with
the direction of the side. -/
noncomputable def sideMoment (u a b : Vec3 ℝ) : Vec3 ℝ := ((a + b).dot u / 6) • a.cross b

/-- **The first moment of a fan** is a sum over the sides, but for a multiple of the direction in
which it is taken. -/
theorem sum_centroid_smul_triangleVector (ps : List (Vec3 ℝ)) (x u : Vec3 ℝ) :
    ((cyclicPairs ps).map fun s =>
        ((x + s.1 + s.2).dot u / 3) • triangleVector x s.1 s.2).sum =
      ((cyclicPairs ps).map fun s => sideMoment u s.1 s.2).sum +
        ((vectorArea ps).dot x / 3) • u := by
  have hx : ((vectorArea ps).dot x / 3) • u =
      ((cyclicPairs ps).map fun s => ((triangleVector x s.1 s.2).dot x / 3) • u).sum := by
    rw [← sum_triangleVector ps x, Vec3.dot_comm, Vec3.dot_sum, sum_map_smul]
    simp only [div_eq_mul_inv, List.sum_map_mul_right, Vec3.dot_comm x]
  rw [hx, ← List.sum_map_add]
  refine sum_cyclicPairs_eq_of_telescope (fun p => ((p + x).dot u / 6) • p.cross x) fun s _ => ?_
  ext <;> simp only [sideMoment, triangleVector_eq, Vec3.cross, Vec3.dot, Vec3.add_x, Vec3.add_y,
    Vec3.add_z, Vec3.sub_x, Vec3.sub_y, Vec3.sub_z, Vec3.smul_x, Vec3.smul_y, Vec3.smul_z] <;>
    ring

/-- The triangles between the midpoint of a side and two points, weighed by the side. -/
theorem sum_dot_smul_triangleVector_midpoint (ps : List (Vec3 ℝ)) (c x u : Vec3 ℝ) :
    ((cyclicPairs ps).map fun s =>
        (s.2 - s.1).dot u • triangleVector (Vec3.midpoint s.1 s.2) c x).sum =
      (1 / 2 : ℝ) • (u.dot (c - x) • vectorArea ps - (vectorArea ps).dot (c - x) • u) := by
  have hx : (1 / 2 : ℝ) • (u.dot (c - x) • vectorArea ps - (vectorArea ps).dot (c - x) • u) =
      ((cyclicPairs ps).map fun s => (1 / 2 : ℝ) • (u.dot (c - x) • triangleVector x s.1 s.2 -
        (triangleVector x s.1 s.2).dot (c - x) • u)).sum := by
    rw [← smul_sum_map, sum_map_sub, ← smul_sum_map, sum_map_smul, sum_triangleVector]
    simp only [Vec3.dot_comm _ (c - x)]
    rw [← Vec3.dot_sum, sum_triangleVector]
  rw [hx]
  refine sum_cyclicPairs_eq_of_telescope
    (fun p => ((p - x).dot u / 4) • (p - x).cross (c - x)) fun s _ => ?_
  ext <;> simp only [triangleVector_eq, Vec3.midpoint_eq, Vec3.cross, Vec3.dot, Vec3.add_x,
    Vec3.add_y, Vec3.add_z, Vec3.sub_x, Vec3.sub_y, Vec3.sub_z, Vec3.smul_x, Vec3.smul_y,
    Vec3.smul_z] <;> ring

end Polygon

/-! ## Convex polygons -/

/-- A point lies in the plane of a polygon and on the left of all its sides, seen against the
normal. -/
structure Polygon.Contains (n : Vec3 ℝ) (ps : List (Vec3 ℝ)) (x : Vec3 ℝ) : Prop where
  coplanar : ∀ p ∈ ps, n.dot (x - p) = 0
  left : ∀ s ∈ cyclicPairs ps, 0 ≤ n.dot ((s.2 - s.1).cross (x - s.1))

/-- A polygon is planar and convex if it contains all its corners. -/
structure ConvexPolygon (n : Vec3 ℝ) (ps : List (Vec3 ℝ)) : Prop where
  unit : n.dot n = 1
  contains_corner : ∀ p ∈ ps, Polygon.Contains n ps p

namespace ConvexPolygon

variable {n x : Vec3 ℝ} {ps : List (Vec3 ℝ)}

/-- A convex polygon contains the hull of its corners. -/
theorem contains_of_inHull (h : ConvexPolygon n ps) (hx : InHull ps x) :
    Polygon.Contains n ps x where
  coplanar p hp := by
    have hp' : n.dot x = n.dot p := hx.dot_eq fun q hq => by
      have hq' := (h.contains_corner q hq).coplanar p hp
      rw [Vec3.dot_sub] at hq'
      linarith
    rw [Vec3.dot_sub, hp', sub_self]
  left s hs := by
    have hc := hx (n.cross (s.2 - s.1)) ((n.cross (s.2 - s.1)).dot s.1) fun q hq => by
      have := (h.contains_corner q hq).left s hs
      rw [Vec3.dot_cross_sub] at this
      linarith
    rw [Vec3.dot_cross_sub]
    linarith

/-- The triangle between a side and a point of the polygon points along the normal. -/
theorem triangleVector_eq_smul (h : ConvexPolygon n ps) (hx : Polygon.Contains n ps x)
    {s : Vec3 ℝ × Vec3 ℝ} (hs : s ∈ cyclicPairs ps) :
    triangleVector s.1 s.2 x = triangleArea s.1 s.2 x • n := by
  have h1 := fst_mem_of_mem_cyclicPairs hs
  have h2 := snd_mem_of_mem_cyclicPairs hs
  have hside : n.dot (s.2 - s.1) = 0 := (h.contains_corner _ h2).coplanar _ h1
  have hcross := Vec3.cross_eq_smul_of_orthogonal h.unit hside (hx.coplanar _ h1)
  have hvec : triangleVector s.1 s.2 x =
      (1 / 2 * n.dot ((s.2 - s.1).cross (x - s.1))) • n := by
    rw [triangleVector_eq, mul_smul, ← hcross]
  have hnonneg : 0 ≤ 1 / 2 * n.dot ((s.2 - s.1).cross (x - s.1)) :=
    mul_nonneg (by norm_num) (hx.left s hs)
  rw [triangleArea_eq_norm, hvec, Vec3.norm_smul_unit h.unit hnonneg]

/-- A point of the polygon lies to the left of a side by twice the area between them. -/
theorem dot_cross_eq (h : ConvexPolygon n ps) (hx : Polygon.Contains n ps x)
    {s : Vec3 ℝ × Vec3 ℝ} (hs : s ∈ cyclicPairs ps) :
    n.dot ((s.2 - s.1).cross (x - s.1)) = 2 * triangleArea s.1 s.2 x := by
  have hvec := congrArg n.dot (h.triangleVector_eq_smul hx hs)
  rw [triangleVector_eq, Vec3.dot_smul, Vec3.dot_smul, h.unit] at hvec
  linarith

theorem triangleVector_apex_eq_smul (h : ConvexPolygon n ps) (hx : Polygon.Contains n ps x)
    {s : Vec3 ℝ × Vec3 ℝ} (hs : s ∈ cyclicPairs ps) :
    triangleVector x s.1 s.2 = triangleArea s.1 s.2 x • n := by
  rw [triangleVector_rotate, h.triangleVector_eq_smul hx hs]

theorem vectorArea_eq_smul (h : ConvexPolygon n ps) (hx : Polygon.Contains n ps x) :
    Polygon.vectorArea ps = ((cyclicPairs ps).map fun s => triangleArea s.1 s.2 x).sum • n := by
  rw [← Polygon.sum_triangleVector ps x, ← sum_map_smul]
  exact congrArg List.sum
    (List.map_congr_left fun s hs => h.triangleVector_apex_eq_smul hx hs)

theorem triangleArea_nonneg (a b c : Vec3 ℝ) : 0 ≤ triangleArea a b c := by
  rw [triangleArea_eq_norm]
  exact Vec3.norm_nonneg _

/-- **The triangles of a fan add up to the area**, wherever in the polygon its apex is. -/
theorem sum_triangleArea (h : ConvexPolygon n ps) (hx : Polygon.Contains n ps x) :
    ((cyclicPairs ps).map fun s => triangleArea s.1 s.2 x).sum =
      (Polygon.vectorArea ps).norm := by
  have hnonneg : 0 ≤ ((cyclicPairs ps).map fun s => triangleArea s.1 s.2 x).sum :=
    List.sum_nonneg fun a ha => by
      obtain ⟨s, -, rfl⟩ := List.mem_map.1 ha
      exact triangleArea_nonneg _ _ _
  rw [h.vectorArea_eq_smul hx, Vec3.norm_smul_unit h.unit hnonneg]

/-- The vector area is the area times the normal. -/
theorem vectorArea_eq (h : ConvexPolygon n ps) (hx : Polygon.Contains n ps x) :
    Polygon.vectorArea ps = (Polygon.vectorArea ps).norm • n := by
  conv_lhs => rw [h.vectorArea_eq_smul hx, h.sum_triangleArea hx]

/-- The first moment of a fan, for the vector areas of its triangles. -/
theorem sum_centroid_smul_eq (h : ConvexPolygon n ps) (hx : Polygon.Contains n ps x)
    (u : Vec3 ℝ) :
    u.dot ((cyclicPairs ps).map fun s =>
        triangleArea s.1 s.2 x • ((1 / 3 : ℝ) • (s.1 + s.2 + x))).sum • n =
      ((cyclicPairs ps).map fun s => Polygon.sideMoment u s.1 s.2).sum +
        ((Polygon.vectorArea ps).dot x / 3) • u := by
  rw [← Polygon.sum_centroid_smul_triangleVector, Vec3.dot_sum, ← sum_map_smul]
  refine congrArg List.sum (List.map_congr_left fun s hs => ?_)
  rw [h.triangleVector_apex_eq_smul hx hs, smul_smul, smul_smul, Vec3.dot_smul, Vec3.dot_comm u,
    add_comm (s.1 + s.2) x, ← add_assoc]
  congr 1
  ring

end ConvexPolygon

/-! ## The geometry of a convex polygon -/

theorem Polygon.geometry_unit (ps : List (Vec3 ℝ)) :
    (geometry ps).unit = vectorArea ps / (vectorArea ps).norm := rfl

theorem Polygon.geometry_measure (ps : List (Vec3 ℝ)) :
    (geometry ps).measure = (vectorArea ps).norm := rfl

/-- A planar convex polygon of positive area. -/
structure ConvexFace (ps : List (Vec3 ℝ)) : Prop where
  convex : ∃ n, ConvexPolygon n ps
  area_pos : 0 < (Polygon.geometry ps).measure

namespace ConvexFace

variable {ps : List (Vec3 ℝ)} {x u : Vec3 ℝ}

theorem ne_nil (h : ConvexFace ps) : ps ≠ [] := by
  rintro rfl
  simpa [Polygon.geometry, Polygon.vectorArea, cyclicPairs, total] using h.area_pos

theorem vectorArea_eq (ps : List (Vec3 ℝ)) (h : 0 < (Polygon.geometry ps).measure) :
    Polygon.vectorArea ps = (Polygon.geometry ps).measure • (Polygon.geometry ps).unit := by
  have hne : (Polygon.vectorArea ps).norm ≠ 0 := ne_of_gt h
  rw [Polygon.geometry_measure, Polygon.geometry_unit, Vec3.div_eq_smul, smul_smul,
    mul_inv_cancel₀ hne, one_smul]

/-- The stored normal is the one that sees the polygon as convex. -/
theorem convexPolygon (h : ConvexFace ps) : ConvexPolygon (Polygon.geometry ps).unit ps := by
  obtain ⟨n, hn⟩ := h.convex
  have hx := hn.contains_of_inHull (Polygon.surrounds_apex h.ne_nil).inHull
  have hunit : (Polygon.geometry ps).unit = n := by
    have hne : (Polygon.vectorArea ps).norm ≠ 0 := ne_of_gt h.area_pos
    have hS := hn.vectorArea_eq hx
    rw [Polygon.geometry_unit, Vec3.div_eq_smul]
    nth_rewrite 2 [hS]
    rw [smul_smul, inv_mul_cancel₀ hne, one_smul]
  rwa [hunit]

theorem contains_of_inHull (h : ConvexFace ps) (hx : InHull ps x) :
    Polygon.Contains (Polygon.geometry ps).unit ps x :=
  h.convexPolygon.contains_of_inHull hx

theorem contains_apex (h : ConvexFace ps) :
    Polygon.Contains (Polygon.geometry ps).unit ps (Polygon.apex ps) :=
  h.contains_of_inHull (Polygon.surrounds_apex h.ne_nil).inHull

theorem fanArea_eq (h : ConvexFace ps) : Polygon.fanArea ps = (Polygon.geometry ps).measure := by
  refine Eq.trans ?_ (h.convexPolygon.sum_triangleArea h.contains_apex)
  simp only [Polygon.fanArea, total_eq_sum, triangleArea_eq_norm, triangleVector_rotate]

/-- The corners surround the stored center. -/
theorem surrounds_center (h : ConvexFace ps) : Surrounds ps (Polygon.geometry ps).center :=
  Polygon.surrounds_barycenter (by rw [h.fanArea_eq]; exact h.area_pos)

theorem contains_center (h : ConvexFace ps) :
    Polygon.Contains (Polygon.geometry ps).unit ps (Polygon.geometry ps).center :=
  h.contains_of_inHull h.surrounds_center.inHull

/-- All points of the polygon lie at one height. -/
theorem unit_dot_eq (h : ConvexFace ps) {y : Vec3 ℝ} (hx : InHull ps x) (hy : InHull ps y) :
    (Polygon.geometry ps).unit.dot x = (Polygon.geometry ps).unit.dot y := by
  obtain ⟨p, hp⟩ := List.exists_mem_of_ne_nil ps h.ne_nil
  have h1 := (h.contains_of_inHull hx).coplanar p hp
  have h2 := (h.contains_of_inHull hy).coplanar p hp
  rw [Vec3.dot_sub] at h1 h2
  linarith

/-- Some corner of a polygon of positive area lies off the line of a side. -/
theorem exists_corner_off_side (h : ConvexFace ps) {s : Vec3 ℝ × Vec3 ℝ}
    (hs : s ∈ cyclicPairs ps) (hne : s.1 ≠ s.2) :
    ∃ p ∈ ps, (Polygon.geometry ps).unit.dot ((s.2 - s.1).cross (p - s.1)) ≠ 0 := by
  by_contra hnone
  push Not at hnone
  have h1 := fst_mem_of_mem_cyclicPairs hs
  have hd : (s.2 - s.1).dot (s.2 - s.1) ≠ 0 := fun h0 =>
    hne (sub_eq_zero.1 (Vec3.dot_self_eq_zero.1 h0)).symm
  have hnd : (Polygon.geometry ps).unit.dot (s.2 - s.1) = 0 :=
    (h.convexPolygon.contains_corner _ (snd_mem_of_mem_cyclicPairs hs)).coplanar _ h1
  -- all triangles of the fan around the start of the side are flat
  have hflat : ∀ t ∈ cyclicPairs ps,
      (Polygon.geometry ps).unit.dot (triangleVector s.1 t.1 t.2) = 0 := by
    intro t ht
    have ha := hnone t.1 (fst_mem_of_mem_cyclicPairs ht)
    have hb := hnone t.2 (snd_mem_of_mem_cyclicPairs ht)
    have hplane := Vec3.dot_cross_of_dot_eq_zero hnd (t.1 - s.1) (t.2 - s.1)
    rw [ha, hb, mul_zero, mul_zero, sub_zero] at hplane
    rw [triangleVector_eq, Vec3.dot_smul, (mul_eq_zero.1 hplane).resolve_left hd, mul_zero]
  have harea : (Polygon.geometry ps).unit.dot (Polygon.vectorArea ps) =
      (Polygon.geometry ps).measure := by
    rw [vectorArea_eq ps h.area_pos, Vec3.dot_smul, h.convexPolygon.unit, mul_one]
  rw [← Polygon.sum_triangleVector ps s.1, Vec3.dot_sum, List.map_congr_left hflat] at harea
  exact h.area_pos.ne (by simpa using harea)

/-- **The center lies properly on the inner side of every side** of positive length. -/
theorem triangleArea_center_pos (h : ConvexFace ps) {s : Vec3 ℝ × Vec3 ℝ}
    (hs : s ∈ cyclicPairs ps) (hne : s.1 ≠ s.2) :
    0 < triangleArea s.1 s.2 (Polygon.geometry ps).center := by
  have hleft : ∀ p ∈ ps, ((Polygon.geometry ps).unit.cross (s.2 - s.1)).dot s.1 ≤
      ((Polygon.geometry ps).unit.cross (s.2 - s.1)).dot p := by
    intro p hp
    have := (h.convexPolygon.contains_corner p hp).left s hs
    rw [Vec3.dot_cross_sub] at this
    linarith
  obtain ⟨p, hp, hoff⟩ := h.exists_corner_off_side hs hne
  rw [Vec3.dot_cross_sub, sub_ne_zero] at hoff
  have hlt := h.surrounds_center.lt _ _ hleft ⟨p, hp, lt_of_le_of_ne (hleft p hp) hoff.symm⟩
  have hleft' := h.convexPolygon.dot_cross_eq h.contains_center hs
  rw [Vec3.dot_cross_sub] at hleft'
  linarith

/-- **The triangles of the fan around the center add up to the area.** -/
theorem sum_triangleArea (h : ConvexFace ps) :
    ((cyclicPairs ps).map fun s => triangleArea s.1 s.2 (Polygon.geometry ps).center).sum =
      (Polygon.geometry ps).measure :=
  h.convexPolygon.sum_triangleArea h.contains_center

theorem sum_triangleArea_apex_smul (h : ConvexFace ps) :
    ((cyclicPairs ps).map fun s => triangleArea s.1 s.2 (Polygon.apex ps) •
        ((1 / 3 : ℝ) • (s.1 + s.2 + Polygon.apex ps))).sum =
      (Polygon.geometry ps).measure • (Polygon.geometry ps).center := by
  have hW : ((cyclicPairs ps).map fun s =>
      (triangleVector (Polygon.apex ps) s.1 s.2).norm).sum = (Polygon.geometry ps).measure := by
    rw [← h.fanArea_eq, Polygon.fanArea, total_eq_sum]
  have hmean := smul_weightedMean (cyclicPairs ps)
    (fun s => (triangleVector (Polygon.apex ps) s.1 s.2).norm)
    (fun s => (1 / 3 : ℝ) • (s.1 + s.2 + Polygon.apex ps))
    (by rw [hW]; exact ne_of_gt h.area_pos)
  rw [← Polygon.barycenter_eq_weightedMean, hW] at hmean
  simp only [triangleArea_eq_norm, ← triangleVector_rotate _ _ (Polygon.apex ps)]
  exact hmean.symm

/-- **The center is the barycenter of every fan** whose apex lies in the polygon. -/
theorem sum_triangleArea_smul (h : ConvexFace ps) (hx : InHull ps x) :
    ((cyclicPairs ps).map fun s =>
        triangleArea s.1 s.2 x • ((1 / 3 : ℝ) • (s.1 + s.2 + x))).sum =
      (Polygon.geometry ps).measure • (Polygon.geometry ps).center := by
  rw [← h.sum_triangleArea_apex_smul]
  refine Vec3.eq_of_forall_dot_eq fun u => ?_
  have hapex := Polygon.surrounds_apex h.ne_nil
  have h1 := h.convexPolygon.sum_centroid_smul_eq (h.contains_of_inHull hx) u
  have h2 := h.convexPolygon.sum_centroid_smul_eq (h.contains_of_inHull hapex.inHull) u
  have hheight : (Polygon.vectorArea ps).dot x = (Polygon.vectorArea ps).dot (Polygon.apex ps) := by
    rw [vectorArea_eq ps h.area_pos, Vec3.smul_dot, Vec3.smul_dot,
      h.unit_dot_eq hx hapex.inHull]
  rw [hheight, ← h2] at h1
  have hdot := congrArg (fun v => (Polygon.geometry ps).unit.dot v) h1
  simpa only [Vec3.dot_smul, h.convexPolygon.unit, mul_one] using hdot

/-- **The first moment of a convex polygon** is a sum over its sides, but for a multiple of the
direction in which it is taken. -/
theorem dot_center_smul_vectorArea (h : ConvexFace ps) (u : Vec3 ℝ) :
    u.dot (Polygon.geometry ps).center • Polygon.vectorArea ps =
      ((cyclicPairs ps).map fun s => Polygon.sideMoment u s.1 s.2).sum +
        ((Polygon.vectorArea ps).dot (Polygon.geometry ps).center / 3) • u := by
  rw [← h.convexPolygon.sum_centroid_smul_eq h.contains_center,
    h.sum_triangleArea_smul h.surrounds_center.inHull, Vec3.dot_smul, vectorArea_eq ps h.area_pos,
    smul_smul, mul_comm]

/-- The height of a point over a face, from any of its corners. -/
theorem unit_dot_sub_center (h : ConvexFace ps) {p : Vec3 ℝ} (hp : p ∈ ps) (x : Vec3 ℝ) :
    (Polygon.geometry ps).unit.dot (x - (Polygon.geometry ps).center) =
      (Polygon.vectorArea ps).dot (x - p) / (Polygon.geometry ps).measure := by
  rw [vectorArea_eq ps h.area_pos, Vec3.smul_dot, mul_div_cancel_left₀ _ h.area_pos.ne',
    Vec3.dot_sub, Vec3.dot_sub, h.unit_dot_eq h.surrounds_center.inHull (inHull_of_mem hp)]

end ConvexFace

/-- A polygon is a convex face if it lies in one plane and on the left of its sides, seen against
its vector area. -/
theorem convexFace_of_vectorArea {ps : List (Vec3 ℝ)} (hne : Polygon.vectorArea ps ≠ 0)
    (hcoplanar : ∀ x ∈ ps, ∀ y ∈ ps, (Polygon.vectorArea ps).dot (x - y) = 0)
    (hleft : ∀ s ∈ cyclicPairs ps, ∀ x ∈ ps,
      0 ≤ (Polygon.vectorArea ps).dot ((s.2 - s.1).cross (x - s.1))) : ConvexFace ps := by
  have hpos : 0 < (Polygon.vectorArea ps).norm :=
    lt_of_le_of_ne (Vec3.norm_nonneg _) (Ne.symm (mt Vec3.norm_eq_zero.1 hne))
  refine ⟨⟨(Polygon.vectorArea ps).norm⁻¹ • Polygon.vectorArea ps, ?_, fun x hx => ⟨?_, ?_⟩⟩, hpos⟩
  · rw [Vec3.smul_dot, Vec3.dot_smul, ← Vec3.norm_mul_self]
    field_simp
  · intro y hy
    rw [Vec3.smul_dot, hcoplanar x hx y hy, mul_zero]
  · intro s hs
    rw [Vec3.smul_dot]
    exact mul_nonneg (inv_nonneg.2 hpos.le) (hleft s hs x hx)

/-! ## Triangles as polygons -/

theorem Polygon.vectorArea_triangle (p q r : Vec3 ℝ) :
    Polygon.vectorArea [p, q, r] = triangleVector p q r := by
  rw [← Polygon.sum_triangleVector [p, q, r] p]
  simp [cyclicPairs]

/-- The center of a triangle is the mean of its corners. -/
theorem ConvexFace.center_triangle {p q r : Vec3 ℝ} (h : ConvexFace [p, q, r]) :
    (Polygon.geometry [p, q, r]).center = (1 / 3 : ℝ) • (p + q + r) := by
  have hp : InHull [p, q, r] p := inHull_of_mem (by simp)
  -- two of the three triangles of the fan around a corner are flat
  have hfan : ∀ F : Vec3 ℝ × Vec3 ℝ → Vec3 ℝ,
      ((cyclicPairs [p, q, r]).map fun s => triangleArea s.1 s.2 p • F s).sum =
        triangleArea q r p • F (q, r) := by
    intro F
    simp [cyclicPairs, triangleArea_eq_norm]
  have harea : triangleArea q r p = (Polygon.geometry [p, q, r]).measure := by
    rw [Polygon.geometry_measure, Polygon.vectorArea_triangle, triangleArea_eq_norm,
      ← triangleVector_rotate q r p]
  have hmoment := h.sum_triangleArea_smul hp
  rw [hfan, harea] at hmoment
  have hcancel := smul_right_injective (Vec3 ℝ) h.area_pos.ne' hmoment
  rw [← hcancel]
  module

/-- The triangle between a side of a triangle and one of its corners is flat, or the triangle. -/
theorem triangleVector_side {p q r x : Vec3 ℝ} {s : Vec3 ℝ × Vec3 ℝ}
    (hs : s ∈ cyclicPairs [p, q, r]) (hx : x ∈ [p, q, r]) :
    triangleVector s.1 s.2 x = 0 ∨ triangleVector s.1 s.2 x = triangleVector p q r := by
  have hside : s = (p, q) ∨ s = (q, r) ∨ s = (r, p) := by simpa [cyclicPairs] using hs
  have hcorner : x = p ∨ x = q ∨ x = r := by simpa using hx
  have hqr : triangleVector q r p = triangleVector p q r := (triangleVector_rotate q r p).symm
  have hrp : triangleVector r p q = triangleVector p q r := triangleVector_rotate p q r
  rcases hside with rfl | rfl | rfl <;> rcases hcorner with rfl | rfl | rfl <;>
    simp [hqr, hrp]

/-- **A triangle that is not flat is a convex face.** -/
theorem convexFace_triangle {p q r : Vec3 ℝ} (h : triangleVector p q r ≠ 0) :
    ConvexFace [p, q, r] := by
  refine convexFace_of_vectorArea ?_ ?_ ?_ <;> rw [Polygon.vectorArea_triangle]
  · exact h
  · intro x hx y hy
    simp only [List.mem_cons, List.not_mem_nil, or_false] at hx hy
    rcases hx with rfl | rfl | rfl <;> rcases hy with rfl | rfl | rfl <;>
      simp only [triangleVector_eq, Vec3.cross, Vec3.dot, Vec3.sub_x, Vec3.sub_y, Vec3.sub_z,
        Vec3.smul_x, Vec3.smul_y, Vec3.smul_z] <;> ring
  · intro s hs x hx
    have htwice : (s.2 - s.1).cross (x - s.1) = (2 : ℝ) • triangleVector s.1 s.2 x := by
      rw [triangleVector_eq, smul_smul]
      norm_num
    rw [htwice, Vec3.dot_smul]
    rcases triangleVector_side hs hx with h0 | h0 <;> rw [h0]
    · simp
    · exact mul_nonneg zero_le_two (Vec3.dot_self_nonneg _)

end Polyfield
