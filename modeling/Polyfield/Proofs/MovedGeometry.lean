import Polyfield.Proofs.CellOrientation
import Polyfield.Proofs.ConvexPolygon

/-!
# Moved polygons and cells

A move of space stretches it by a factor and displaces it then.  Whatever is made of differences
of points is stretched with it, and a mean of points whose weights are stretched alike is moved
as the points are.

* `weightedMean_move` : the means of moved points;
* `Polygon.geometry_move` : the polygon with moved corners;
* `Cone.sign_move`, `Cone.cellVolume_move`, `Cone.cellCenter_move` : the cell with moved faces;
* `Dual.halfVolume_move`, `Dual.facePart_move` : its dual parts.
-/

namespace Polyfield

/-- A move of space: it is stretched by a factor and then displaced. -/
structure Move where
  /-- The factor by which lengths are stretched. -/
  factor : ℝ
  factor_pos : 0 < factor
  /-- Where the origin goes. -/
  displacement : Vec3 ℝ

namespace Move

variable (μ : Move)

/-- Where a point goes. -/
noncomputable def apply (x : Vec3 ℝ) : Vec3 ℝ := μ.factor • x + μ.displacement

theorem factor_pow_pos (k : Nat) : 0 < μ.factor ^ k := pow_pos μ.factor_pos k

/-- Displacements do not show in differences. -/
theorem apply_sub_apply (a b : Vec3 ℝ) : μ.apply a - μ.apply b = μ.factor • (a - b) := by
  rw [apply, apply, add_sub_add_right_eq_sub, smul_sub]

end Move

variable (μ : Move)

/-! ## Points, lengths and volumes -/

theorem Vec3.norm_smul_pow (k : Nat) (v : Vec3 ℝ) :
    (μ.factor ^ k • v).norm = μ.factor ^ k * v.norm := by
  rw [Vec3.norm_smul, abs_of_pos (μ.factor_pow_pos k)]

theorem Vec3.cross_smul_smul (s : ℝ) (a b : Vec3 ℝ) :
    (s • a).cross (s • b) = s ^ 2 • a.cross b := by
  ext <;> simp [Vec3.cross] <;> ring

theorem Vec3.midpoint_move (a b : Vec3 ℝ) :
    Vec3.midpoint (μ.apply a) (μ.apply b) = μ.apply (Vec3.midpoint a b) := by
  rw [Vec3.midpoint_eq, Vec3.midpoint_eq, Move.apply, Move.apply, Move.apply]
  module

theorem triangleVector_move (a b c : Vec3 ℝ) :
    triangleVector (μ.apply a) (μ.apply b) (μ.apply c) =
      μ.factor ^ 2 • triangleVector a b c := by
  rw [triangleVector, triangleVector, μ.apply_sub_apply, μ.apply_sub_apply, Vec3.cross_smul_smul,
    smul_comm]

theorem triangleArea_move (a b c : Vec3 ℝ) :
    triangleArea (μ.apply a) (μ.apply b) (μ.apply c) = μ.factor ^ 2 * triangleArea a b c := by
  rw [triangleArea_eq_norm, triangleArea_eq_norm, triangleVector_move, Vec3.norm_smul_pow]

theorem tetraVolume_move (a b c d : Vec3 ℝ) :
    tetraVolume (μ.apply a) (μ.apply b) (μ.apply c) (μ.apply d) =
      μ.factor ^ 3 * tetraVolume a b c d := by
  rw [tetraVolume, tetraVolume, μ.apply_sub_apply, μ.apply_sub_apply, μ.apply_sub_apply,
    Vec3.cross_smul_smul, Vec3.smul_dot, Vec3.dot_smul, Scalar.abs_real, Scalar.abs_real, abs_mul,
    abs_mul, abs_of_pos μ.factor_pos, abs_of_pos (μ.factor_pow_pos 2)]
  ring

/-! ## Means -/

/-- **The mean of moved points** is the moved mean, also if all weights are stretched alike. -/
theorem weightedMean_move {ι : Type} {xs : List ι} {w w' : ι → ℝ} {x x' : ι → Vec3 ℝ} {c : ℝ}
    (hc : c ≠ 0) (hW : (xs.map w).sum ≠ 0) (hw : ∀ i ∈ xs, w' i = c * w i)
    (hx : ∀ i ∈ xs, x' i = μ.apply (x i)) :
    weightedMean xs w' x' = μ.apply (weightedMean xs w x) := by
  have hweights : (xs.map w').sum = c * (xs.map w).sum := by
    rw [List.map_congr_left hw, List.sum_map_mul_left]
  have hpoints : (xs.map fun i => w' i • x' i).sum =
      c • (μ.factor • (xs.map fun i => w i • x i).sum + (xs.map w).sum • μ.displacement) := by
    rw [← sum_map_smul, smul_sum_map, ← List.sum_map_add, smul_sum_map]
    refine congrArg List.sum (List.map_congr_left fun i hi => ?_)
    rw [hw i hi, hx i hi, Move.apply]
    module
  have hcancel : (c * (xs.map w).sum)⁻¹ * c = (xs.map w).sum⁻¹ := by
    rw [mul_inv_rev, mul_assoc, inv_mul_cancel₀ hc, mul_one]
  rw [weightedMean, hweights, hpoints, Vec3.div_eq_smul, smul_smul, hcancel, smul_add, smul_smul _ _
    μ.displacement, inv_mul_cancel₀ hW, one_smul, smul_comm, weightedMean, Vec3.div_eq_smul,
    Move.apply]

/-- The geometry of an edge or a face after a move, the measure of which is a power of lengths. -/
noncomputable def EntityGeometry.move (k : Nat) (g : EntityGeometry ℝ) : EntityGeometry ℝ :=
  ⟨μ.apply g.center, g.unit, μ.factor ^ k * g.measure⟩

/-- A vector keeps its direction when it is stretched. -/
theorem unit_move (k : Nat) (v : Vec3 ℝ) :
    (μ.factor ^ k • v) / (μ.factor ^ k * v.norm) = v / v.norm := by
  rw [Vec3.div_eq_smul, Vec3.div_eq_smul, smul_smul, mul_inv, mul_comm, ← mul_assoc,
    mul_inv_cancel₀ (μ.factor_pow_pos k).ne', one_mul]

theorem EntityGeometry.ofSegment_move (a b : Vec3 ℝ) :
    ofSegment (μ.apply a) (μ.apply b) = (ofSegment a b).move μ 1 := by
  have hvector : μ.apply b - μ.apply a = μ.factor ^ 1 • (b - a) := by
    rw [μ.apply_sub_apply, pow_one]
  simp only [ofSegment, EntityGeometry.move, hvector, Vec3.norm_smul_pow, unit_move,
    Vec3.midpoint_move]

/-! ## Polygons -/

namespace Polygon

variable {ps : List (Vec3 ℝ)}

theorem apex_move (hps : ps ≠ []) : apex (ps.map μ.apply) = μ.apply (apex ps) := by
  rw [apex_eq_weightedMean, apex_eq_weightedMean, weightedMean_map]
  exact weightedMean_move μ one_ne_zero (sum_ones_pos hps).ne' (fun _ _ => (one_mul 1).symm)
    fun _ _ => rfl

variable (hps : ps ≠ [])
include hps

theorem vectorArea_move : vectorArea (ps.map μ.apply) = μ.factor ^ 2 • vectorArea ps := by
  rw [vectorArea, vectorArea, apex_move μ hps, cyclicPairs_map, List.map_map, total_eq_sum,
    total_eq_sum, smul_sum_map]
  exact congrArg List.sum (List.map_congr_left fun s _ => triangleVector_move μ _ s.1 s.2)

theorem barycenter_move (h : fanArea ps ≠ 0) :
    barycenter (ps.map μ.apply) = μ.apply (barycenter ps) := by
  rw [fanArea, total_eq_sum] at h
  rw [barycenter_eq_weightedMean, barycenter_eq_weightedMean, apex_move μ hps, cyclicPairs_map,
    weightedMean_map]
  refine weightedMean_move μ (μ.factor_pow_pos 2).ne' h (fun s _ => ?_) fun s _ => ?_
  · rw [Prod.map_fst, Prod.map_snd, triangleVector_move, Vec3.norm_smul_pow]
  · rw [Prod.map_fst, Prod.map_snd, Move.apply, Move.apply, Move.apply, Move.apply]
    module

omit hps in
/-- **The polygon with moved corners.** -/
theorem geometry_move (h : fanArea ps ≠ 0) :
    geometry (ps.map μ.apply) = (geometry ps).move μ 2 := by
  have hps : ps ≠ [] := by
    rintro rfl
    exact h rfl
  simp only [geometry, EntityGeometry.move, barycenter_move μ hps h, vectorArea_move μ hps,
    Vec3.norm_smul_pow, unit_move]

end Polygon

/-! ## Cones -/

namespace Cone

variable {faces : List (EntityGeometry ℝ)}

theorem apex_move (hfaces : faces ≠ []) :
    apex (faces.map (EntityGeometry.move μ 2)) = μ.apply (apex faces) := by
  rw [apex_eq_weightedMean, apex_eq_weightedMean, weightedMean_map]
  exact weightedMean_move μ one_ne_zero (sum_ones_pos hfaces).ne' (fun _ _ => (one_mul 1).symm)
    fun _ _ => rfl

theorem height_move (x : Vec3 ℝ) (face : EntityGeometry ℝ) :
    height (μ.apply x) (face.move μ 2) = μ.factor * height x face := by
  rw [height, height, EntityGeometry.move, μ.apply_sub_apply, Vec3.dot_smul]

/-- A face keeps its orientation. -/
theorem sign_move (x : Vec3 ℝ) (face : EntityGeometry ℝ) :
    sign (μ.apply x) (face.move μ 2) = sign x face := by
  rw [sign, sign, height_move]
  exact if_congr (mul_nonneg_iff_of_pos_left μ.factor_pos) rfl rfl

theorem volume_move (x : Vec3 ℝ) (face : EntityGeometry ℝ) :
    volume (μ.apply x) (face.move μ 2) = μ.factor ^ 3 * volume x face := by
  rw [volume, volume, height_move, EntityGeometry.move, Scalar.abs_real, Scalar.abs_real, abs_mul,
    abs_of_pos μ.factor_pos]
  ring

theorem barycenter_move (x : Vec3 ℝ) (face : EntityGeometry ℝ) :
    barycenter (μ.apply x) (face.move μ 2) = μ.apply (barycenter x face) := by
  rw [barycenter, barycenter, EntityGeometry.move, μ.apply_sub_apply, Move.apply, Move.apply]
  module

variable (hfaces : faces ≠ [])
include hfaces

/-- **The volume of the cell with moved faces.** -/
theorem cellVolume_move :
    cellVolume (faces.map (EntityGeometry.move μ 2)) = μ.factor ^ 3 * cellVolume faces := by
  rw [cellVolume, cellVolume, apex_move μ hfaces, List.map_map, total_eq_sum, total_eq_sum,
    ← List.sum_map_mul_left]
  exact congrArg List.sum (List.map_congr_left fun face _ => volume_move μ _ face)

/-- **The center of the cell with moved faces.** -/
theorem cellCenter_move (h : cellVolume faces ≠ 0) :
    cellCenter (faces.map (EntityGeometry.move μ 2)) = μ.apply (cellCenter faces) := by
  rw [cellVolume, total_eq_sum] at h
  rw [cellCenter_eq_weightedMean, cellCenter_eq_weightedMean, apex_move μ hfaces, weightedMean_map]
  exact weightedMean_move μ (μ.factor_pow_pos 3).ne' h (fun face _ => volume_move μ _ face)
    fun face _ => barycenter_move μ _ face

end Cone

/-! ## Dual parts -/

namespace Dual

theorem halfVolume_move (a b x y : Vec3 ℝ) :
    halfVolume (μ.apply a) (μ.apply b) (μ.apply x) (μ.apply y) =
      μ.factor ^ 3 * halfVolume a b x y := by
  rw [halfVolume, halfVolume, Vec3.midpoint_move, tetraVolume_move]

/-- A part of a dual face is turned along its edge as before. -/
theorem facePart_move (a b x y : Vec3 ℝ) :
    facePart (μ.apply a) (μ.apply b) (μ.apply x) (μ.apply y) =
      μ.factor ^ 2 • facePart a b x y := by
  have hturn : ∀ v : Vec3 ℝ, (μ.factor ^ 2 • v).dot (μ.factor • (b - a)) < 0 ↔
      v.dot (b - a) < 0 := by
    intro v
    have hpos : 0 < μ.factor ^ 2 * μ.factor := mul_pos (μ.factor_pow_pos 2) μ.factor_pos
    rw [Vec3.smul_dot, Vec3.dot_smul, ← mul_assoc]
    simpa only [not_le] using not_congr (mul_nonneg_iff_of_pos_left hpos)
  simp only [facePart, Vec3.midpoint_move, triangleVector_move, μ.apply_sub_apply, hturn]
  split
  · rw [smul_neg]
  · rfl

end Dual

end Polyfield
