import Mathlib.Algebra.Order.BigOperators.Group.List
import Polyfield.Mesh.Geometry
import Polyfield.Proofs.ExactArithmetic
import Polyfield.Proofs.Sides

/-!
# Weighted means and convex hulls

Centers are weighted means.  A half space that holds all points of a mean holds the mean
(`le_dot_weightedMean`), and the mean lies off the boundary plane as soon as one point of positive
weight does (`lt_dot_weightedMean`).

* `InHull ps x` : `x` lies in the convex hull of the points `ps`;
* `Surrounds ps x` : and in its relative interior;
* `Polygon.surrounds_apex`, `Polygon.surrounds_barycenter` : the corners of a polygon surround
  the centers that are computed for it.
-/

namespace Polyfield

/-! ## Weighted means -/

/-- The mean of some points with weights. -/
noncomputable def weightedMean {ι : Type} (xs : List ι) (w : ι → ℝ) (x : ι → Vec3 ℝ) : Vec3 ℝ :=
  (xs.map fun i => w i • x i).sum / (xs.map w).sum

section WeightedMean

variable {ι : Type} {xs : List ι} {w : ι → ℝ} {x : ι → Vec3 ℝ} {g : Vec3 ℝ} {c : ℝ}

theorem dot_weightedMean : g.dot (weightedMean xs w x) =
    (xs.map fun i => w i * g.dot (x i)).sum / (xs.map w).sum := by
  simp only [weightedMean, Vec3.dot_div, Vec3.dot_sum, Vec3.dot_smul]

/-- The total weight times the mean is the sum of the weighted points. -/
theorem smul_weightedMean (xs : List ι) (w : ι → ℝ) (x : ι → Vec3 ℝ)
    (hW : (xs.map w).sum ≠ 0) :
    (xs.map w).sum • weightedMean xs w x = (xs.map fun i => w i • x i).sum := by
  rw [weightedMean, Vec3.div_eq_smul, smul_smul, mul_inv_cancel₀ hW, one_smul]

/-- The mean lies in every half space that holds all points. -/
theorem le_dot_weightedMean (hw : ∀ i ∈ xs, 0 ≤ w i) (hW : 0 < (xs.map w).sum)
    (h : ∀ i ∈ xs, c ≤ g.dot (x i)) : c ≤ g.dot (weightedMean xs w x) := by
  rw [dot_weightedMean, le_div_iff₀ hW, mul_comm, ← List.sum_map_mul_right]
  exact List.sum_le_sum fun i hi => mul_le_mul_of_nonneg_left (h i hi) (hw i hi)

/-- The mean lies inside a half space that holds all points, and some point of positive weight
inside. -/
theorem lt_dot_weightedMean (hw : ∀ i ∈ xs, 0 ≤ w i) (hW : 0 < (xs.map w).sum)
    (h : ∀ i ∈ xs, c ≤ g.dot (x i)) (hlt : ∃ i ∈ xs, 0 < w i ∧ c < g.dot (x i)) :
    c < g.dot (weightedMean xs w x) := by
  rw [dot_weightedMean, lt_div_iff₀ hW, mul_comm, ← List.sum_map_mul_right]
  refine List.sum_lt_sum _ _ (fun i hi => mul_le_mul_of_nonneg_left (h i hi) (hw i hi)) ?_
  obtain ⟨i, hi, hwi, hgi⟩ := hlt
  exact ⟨i, hi, mul_lt_mul_of_pos_left hgi hwi⟩

/-- The mean does not depend on the order of the points. -/
theorem weightedMean_perm {ys : List ι} (h : xs.Perm ys) :
    weightedMean xs w x = weightedMean ys w x := by
  rw [weightedMean, weightedMean, (h.map _).sum_eq, (h.map _).sum_eq]

theorem weightedMean_map {κ : Type} (g : κ → ι) (ks : List κ) :
    weightedMean (ks.map g) w x = weightedMean ks (fun k => w (g k)) fun k => x (g k) := by
  rw [weightedMean, weightedMean, List.map_map, List.map_map]
  rfl

/-- The mean of points with the same weight. -/
theorem weightedMean_eq_of_sum_eq {ι : Type} {xs : List ι} {w : ι → ℝ} {x : ι → Vec3 ℝ} {c : ℝ}
    {y : Vec3 ℝ} (hxs : xs ≠ []) (hc : c ≠ 0) (hw : ∀ i ∈ xs, w i = c)
    (hy : (xs.map x).sum = (xs.length : ℝ) • y) : weightedMean xs w x = y := by
  have hpoints : ∀ i ∈ xs, w i • x i = c • x i := fun i hi => by rw [hw i hi]
  have hlen : (xs.length : ℝ) ≠ 0 := Nat.cast_ne_zero.2 (List.length_pos_iff.2 hxs).ne'
  rw [weightedMean, List.map_congr_left hpoints, List.map_congr_left hw, ← smul_sum_map, hy,
    List.map_const', List.sum_replicate, nsmul_eq_mul, Vec3.div_eq_smul, smul_smul, smul_smul,
    mul_assoc, mul_comm c, inv_mul_cancel₀ (mul_ne_zero hlen hc), one_smul]

theorem sum_ones_pos (h : xs ≠ []) : 0 < (xs.map fun _ => (1 : ℝ)).sum := by
  simpa using List.length_pos_iff.2 h

end WeightedMean

/-! ## Convex hulls -/

/-- A point lies in the convex hull of some points if it lies in every half space that holds
them all. -/
def InHull (ps : List (Vec3 ℝ)) (x : Vec3 ℝ) : Prop :=
  ∀ (g : Vec3 ℝ) (c : ℝ), (∀ p ∈ ps, c ≤ g.dot p) → c ≤ g.dot x

/-- Some points surround a point that lies in the relative interior of their convex hull: it
lies on the boundary plane of a half space that holds them only if they all do. -/
structure Surrounds (ps : List (Vec3 ℝ)) (x : Vec3 ℝ) : Prop where
  inHull : InHull ps x
  lt : ∀ (g : Vec3 ℝ) (c : ℝ), (∀ p ∈ ps, c ≤ g.dot p) → (∃ p ∈ ps, c < g.dot p) → c < g.dot x

theorem inHull_of_mem {ps : List (Vec3 ℝ)} {p : Vec3 ℝ} (h : p ∈ ps) : InHull ps p :=
  fun _ _ hg => hg p h

/-- A point of the hull lies in the plane of the points, if they have one. -/
theorem InHull.dot_eq {ps : List (Vec3 ℝ)} {x g : Vec3 ℝ} {c : ℝ} (hx : InHull ps x)
    (h : ∀ p ∈ ps, g.dot p = c) : g.dot x = c := by
  refine le_antisymm ?_ (hx g c fun p hp => (h p hp).ge)
  have hneg : -c ≤ (-g).dot x := hx (-g) (-c) fun p hp => by rw [Vec3.neg_dot, h p hp]
  rw [Vec3.neg_dot] at hneg
  linarith

theorem InHull.mono {ps qs : List (Vec3 ℝ)} {x : Vec3 ℝ} (hx : InHull ps x)
    (h : ∀ p ∈ ps, p ∈ qs) : InHull qs x :=
  fun g c hg => hx g c fun p hp => hg p (h p hp)

/-- Some points surround a mean of points of their hull, if every half space that holds them
properly has such a point of positive weight inside. -/
theorem surrounds_weightedMean {ι : Type} {ps : List (Vec3 ℝ)} {xs : List ι} {w : ι → ℝ}
    {x : ι → Vec3 ℝ} (hw : ∀ i ∈ xs, 0 ≤ w i) (hW : 0 < (xs.map w).sum)
    (hx : ∀ i ∈ xs, InHull ps (x i))
    (hlt : ∀ (g : Vec3 ℝ) (c : ℝ), (∀ p ∈ ps, c ≤ g.dot p) → (∃ p ∈ ps, c < g.dot p) →
      ∃ i ∈ xs, 0 < w i ∧ c < g.dot (x i)) :
    Surrounds ps (weightedMean xs w x) where
  inHull g c hg := le_dot_weightedMean hw hW fun i hi => hx i hi g c hg
  lt g c hg hp := lt_dot_weightedMean hw hW (fun i hi => hx i hi g c hg) (hlt g c hg hp)

/-! ## Centers of polygons -/

namespace Polygon

variable {ps : List (Vec3 ℝ)}

theorem apex_eq_weightedMean (ps : List (Vec3 ℝ)) :
    apex ps = weightedMean ps (fun _ => 1) id := by
  simp [apex, weightedMean, total_eq_sum]

theorem barycenter_eq_weightedMean (ps : List (Vec3 ℝ)) :
    barycenter ps = weightedMean (cyclicPairs ps)
      (fun s => (triangleVector (apex ps) s.1 s.2).norm)
      (fun s => (1 / 3 : ℝ) • (s.1 + s.2 + apex ps)) := by
  simp only [barycenter, fanArea, weightedMean, total_eq_sum, Vec3.div_eq_smul]
  congr 3
  funext s
  rw [smul_comm, Nat.cast_ofNat, one_div]

/-- The corners of a polygon surround their mean. -/
theorem surrounds_apex (h : ps ≠ []) : Surrounds ps (apex ps) := by
  rw [apex_eq_weightedMean]
  refine surrounds_weightedMean (fun _ _ => zero_le_one) (sum_ones_pos h)
    (fun p hp => inHull_of_mem hp) ?_
  rintro g c - ⟨p, hp, hgp⟩
  exact ⟨p, hp, zero_lt_one, hgp⟩

/-- A polygon of positive area has triangles of positive area. -/
theorem fanArea_pos (h : 0 < (geometry ps).measure) : 0 < fanArea ps := by
  have hnonneg : ∀ v ∈ (cyclicPairs ps).map fun s => (triangleVector (apex ps) s.1 s.2).norm,
      0 ≤ v := by
    intro v hv
    obtain ⟨s, -, rfl⟩ := List.mem_map.1 hv
    exact Vec3.norm_nonneg _
  rw [fanArea, total_eq_sum]
  refine lt_of_le_of_ne (List.sum_nonneg hnonneg) fun hzero => ?_
  -- all triangles are flat then, and so is the polygon
  have hflat : ∀ s ∈ cyclicPairs ps, triangleVector (apex ps) s.1 s.2 = 0 := fun s hs =>
    Vec3.norm_eq_zero.1 (List.all_zero_of_le_zero_le_of_sum_eq_zero hnonneg hzero.symm
      (List.mem_map_of_mem hs))
  have harea : vectorArea ps = 0 := by
    rw [vectorArea, total_eq_sum, List.map_congr_left hflat]
    simp
  have hmeasure : (geometry ps).measure = (vectorArea ps).norm := rfl
  rw [hmeasure, harea, Vec3.norm_zero] at h
  exact lt_irrefl 0 h

/-- The corners of a polygon that is not flat surround its barycenter. -/
theorem surrounds_barycenter (h : 0 < fanArea ps) : Surrounds ps (barycenter ps) := by
  have hne : ps ≠ [] := by
    rintro rfl
    simp [fanArea, cyclicPairs, total] at h
  have hapex := surrounds_apex hne
  have hW : 0 < ((cyclicPairs ps).map fun s => (triangleVector (apex ps) s.1 s.2).norm).sum := by
    rwa [fanArea, total_eq_sum] at h
  have hdot : ∀ (g : Vec3 ℝ) (s : Vec3 ℝ × Vec3 ℝ), g.dot ((1 / 3 : ℝ) • (s.1 + s.2 + apex ps)) =
      (g.dot s.1 + g.dot s.2 + g.dot (apex ps)) / 3 := by
    intro g s
    rw [Vec3.dot_smul, Vec3.dot_add, Vec3.dot_add]
    ring
  rw [barycenter_eq_weightedMean]
  refine surrounds_weightedMean (fun _ _ => Vec3.norm_nonneg _) hW ?_ ?_
  · intro s hs g c hg
    have h1 := hg _ (fst_mem_of_mem_cyclicPairs hs)
    have h2 := hg _ (snd_mem_of_mem_cyclicPairs hs)
    have h3 := hapex.inHull g c hg
    rw [hdot]
    linarith
  · intro g c hg hlt
    -- some triangle is not flat, since their areas add up to a positive number
    have hpos : ∃ s ∈ cyclicPairs ps, 0 < (triangleVector (apex ps) s.1 s.2).norm :=
      List.exists_lt_of_sum_lt (fun _ => 0) _ (by simpa using hW)
    obtain ⟨s, hs, hws⟩ := hpos
    have h1 := hg _ (fst_mem_of_mem_cyclicPairs hs)
    have h2 := hg _ (snd_mem_of_mem_cyclicPairs hs)
    have h3 := hapex.lt g c hg hlt
    refine ⟨s, hs, hws, ?_⟩
    rw [hdot]
    linarith

end Polygon

end Polyfield
