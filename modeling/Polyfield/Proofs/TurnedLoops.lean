import Mathlib.Data.List.Rotate
import Polyfield.Proofs.ConvexPolygon

/-!
# Turned loops

A loop can be written from any start and in either direction.  Another start lists the same sides
in another order, the other direction lists them swapped.  The polygon of the loop keeps its center
and its area, and the other direction turns its normal around.

* `cyclicPairs_rotate`, `cyclicPairs_reverse` : the sides of a turned loop;
* `Polygon.geometry_of_isRotated`, `Polygon.geometry_of_isRotated_reverse` : its polygon;
* `Cone.cellVolume_congr`, `Cone.cellCenter_congr`, `Cone.sign_flip` : what a cell makes of faces
  that may be seen from their other side.
-/

namespace Polyfield

/-! ## Sides -/

section Sides

variable {α : Type}

theorem cyclicPairs_eq_zip_rotate (xs : List α) : cyclicPairs xs = xs.zip (xs.rotate 1) := by
  cases xs with
  | nil => rfl
  | cons a as => simp [cyclicPairs]

/-- Another start only turns the list of sides. -/
theorem cyclicPairs_rotate (xs : List α) (k : Nat) :
    cyclicPairs (xs.rotate k) = (cyclicPairs xs).rotate k := by
  have hnext : (xs.rotate k).rotate 1 = (xs.rotate 1).rotate k := by
    rw [List.rotate_rotate, List.rotate_rotate, Nat.add_comm]
  rw [cyclicPairs_eq_zip_rotate, cyclicPairs_eq_zip_rotate, hnext]
  exact (List.zipWith_rotate_distrib Prod.mk xs (xs.rotate 1) k (List.length_rotate ..).symm).symm

/-- The other direction swaps the sides. -/
theorem cyclicPairs_reverse (xs : List α) :
    cyclicPairs xs.reverse = (((cyclicPairs xs).map Prod.swap).reverse).rotate 1 := by
  have hlast : (xs.rotate 1).reverse.rotate 1 = xs.reverse := by
    cases xs with
    | nil => rfl
    | cons a as => simp
  have hlen : xs.length = (xs.rotate 1).length := (List.length_rotate ..).symm
  have hswap : ((cyclicPairs xs).map Prod.swap).reverse =
      (xs.rotate 1).reverse.zip xs.reverse := by
    rw [cyclicPairs_eq_zip_rotate, List.zip_swap]
    exact List.reverse_zipWith hlen.symm
  have hturn := List.zipWith_rotate_distrib Prod.mk (xs.rotate 1).reverse xs.reverse 1 (by simp)
  rw [hlast] at hturn
  rw [cyclicPairs_eq_zip_rotate, hswap]
  exact hturn.symm

theorem cyclicPairs_perm_of_isRotated {xs ys : List α} (h : xs.IsRotated ys) :
    (cyclicPairs ys).Perm (cyclicPairs xs) := by
  obtain ⟨k, rfl⟩ := h
  rw [cyclicPairs_rotate]
  exact List.rotate_perm _ _

theorem cyclicPairs_perm_of_isRotated_reverse {xs ys : List α} (h : xs.reverse.IsRotated ys) :
    (cyclicPairs ys).Perm ((cyclicPairs xs).map Prod.swap) := by
  refine (cyclicPairs_perm_of_isRotated h).trans ?_
  rw [cyclicPairs_reverse]
  exact (List.rotate_perm _ _).trans (List.reverse_perm _)

end Sides

/-! ## Polygons -/

/-- The geometry of a face that is seen from its other side. -/
noncomputable def EntityGeometry.flip (face : EntityGeometry ℝ) : EntityGeometry ℝ :=
  ⟨face.center, -face.unit, face.measure⟩

theorem Vec3.norm_neg (v : Vec3 ℝ) : (-v).norm = v.norm := by
  rw [← neg_one_smul ℝ v, norm_smul, abs_neg, abs_one, one_mul]

namespace Polygon

variable {ps qs : List (Vec3 ℝ)}

theorem apex_perm (h : qs.Perm ps) : apex qs = apex ps := by
  rw [apex_eq_weightedMean, apex_eq_weightedMean, weightedMean_perm h]

/-- A polygon is given by its corners and its sides, in any order. -/
theorem geometry_of_sides (hcorners : qs.Perm ps)
    (hsides : (cyclicPairs qs).Perm (cyclicPairs ps)) :
    geometry qs = geometry ps := by
  have harea : vectorArea qs = vectorArea ps := by
    rw [vectorArea_eq_sum_cross, vectorArea_eq_sum_cross, (hsides.map _).sum_eq]
  have hcenter : barycenter qs = barycenter ps := by
    rw [barycenter_eq_weightedMean, barycenter_eq_weightedMean, weightedMean_perm hsides,
      apex_perm hcorners]
  rw [geometry, geometry, harea, hcenter]

/-- With the sides swapped, a polygon is seen from its other side. -/
theorem geometry_of_swapped_sides (hcorners : qs.Perm ps)
    (hsides : (cyclicPairs qs).Perm ((cyclicPairs ps).map Prod.swap)) :
    geometry qs = (geometry ps).flip := by
  have harea : vectorArea qs = -vectorArea ps := by
    rw [vectorArea_eq_sum_cross, vectorArea_eq_sum_cross, (hsides.map _).sum_eq, List.map_map,
      List.sum_neg, List.map_map]
    refine congrArg List.sum (List.map_congr_left fun s _ => ?_)
    simp only [Function.comp_apply, Prod.fst_swap, Prod.snd_swap]
    rw [Vec3.cross_comm, smul_neg]
  have hcenter : barycenter qs = barycenter ps := by
    rw [barycenter_eq_weightedMean, barycenter_eq_weightedMean, weightedMean_perm hsides,
      weightedMean_map, apex_perm hcorners]
    congr 1
    · funext s
      rw [Prod.fst_swap, Prod.snd_swap, ← triangleVector_rotate, triangleVector_swap,
        Vec3.norm_neg, triangleVector_rotate]
    · funext s
      rw [Prod.fst_swap, Prod.snd_swap, add_comm s.2]
  have hnorm : (vectorArea qs).norm = (vectorArea ps).norm := by rw [harea, Vec3.norm_neg]
  rw [geometry, geometry, hcenter, hnorm, harea, EntityGeometry.flip, Vec3.div_eq_smul, smul_neg,
    Vec3.div_eq_smul]

theorem geometry_of_isRotated (h : ps.IsRotated qs) : geometry qs = geometry ps :=
  geometry_of_sides h.perm.symm (cyclicPairs_perm_of_isRotated h)

theorem geometry_of_isRotated_reverse (h : ps.reverse.IsRotated qs) :
    geometry qs = (geometry ps).flip :=
  geometry_of_swapped_sides (h.perm.symm.trans (List.reverse_perm ps))
    (cyclicPairs_perm_of_isRotated_reverse h)

end Polygon

/-! ## Cones -/

namespace Cone

theorem height_flip (x : Vec3 ℝ) (face : EntityGeometry ℝ) :
    height x face.flip = -height x face := Vec3.neg_dot _ _

theorem volume_flip (x : Vec3 ℝ) (face : EntityGeometry ℝ) :
    volume x face.flip = volume x face := by
  rw [volume, height_flip, Scalar.abs_real, abs_neg]
  rfl

/-- From its other side a face has the other orientation, unless the apex lies in its plane. -/
theorem sign_flip {x : Vec3 ℝ} {face : EntityGeometry ℝ} (h : height x face ≠ 0) :
    sign x face.flip = -sign x face := by
  rw [sign, sign, height_flip]
  rcases lt_or_gt_of_ne h with hneg | hpos
  · rw [if_pos (by linarith), if_neg (by linarith)]
    rfl
  · rw [if_neg (by linarith), if_pos (by linarith)]

section Congr

variable {ι : Type} {is : List ι} {F G : ι → EntityGeometry ℝ}
  (h : ∀ i ∈ is, G i = F i ∨ G i = (F i).flip)
include h

/-- The cones of a cell have one apex, whichever side its faces are seen from. -/
theorem apex_congr : apex (is.map G) = apex (is.map F) := by
  have hcenter : ∀ i ∈ is, (G i).center = (F i).center := by
    intro i hi
    rcases h i hi with hi | hi <;> rw [hi]
    rfl
  rw [apex, apex, List.map_map, List.map_map, List.length_map, List.length_map]
  exact congrArg (total · / _) (List.map_congr_left hcenter)

theorem volume_congr (x : Vec3 ℝ) {i : ι} (hi : i ∈ is) : volume x (G i) = volume x (F i) := by
  rcases h i hi with hi | hi <;> rw [hi]
  exact volume_flip x (F i)

theorem barycenter_congr (x : Vec3 ℝ) {i : ι} (hi : i ∈ is) :
    barycenter x (G i) = barycenter x (F i) := by
  rcases h i hi with hi | hi <;> rw [hi]
  rfl

theorem cellVolume_congr : cellVolume (is.map G) = cellVolume (is.map F) := by
  rw [cellVolume, cellVolume, apex_congr h, List.map_map, List.map_map]
  exact congrArg total (List.map_congr_left fun i hi => volume_congr h _ hi)

theorem cellCenter_congr : cellCenter (is.map G) = cellCenter (is.map F) := by
  rw [cellCenter, cellCenter, apex_congr h, cellVolume_congr h, List.map_map, List.map_map]
  refine congrArg (total · / _) (List.map_congr_left fun i hi => ?_)
  rw [Function.comp_apply, Function.comp_apply, volume_congr h _ hi, barycenter_congr h _ hi]

end Congr

end Cone

end Polyfield
