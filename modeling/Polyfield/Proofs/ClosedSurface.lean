import Mathlib.Tactic.Module
import Polyfield.Proofs.ConvexPolygon

/-!
# Closed surfaces

Faces with signs make a closed surface if their vector areas, turned outwards by the signs, add
up to zero, and their first moments to the volume in every direction.  This is the divergence
theorem for constant and for linear fields, and all that the quantities of a cell rest on.

* `ClosedSurface.ofSides` : faces along whose sides every antisymmetric function cancels make a
  closed surface;
* `ClosedSurface.sum_dot_apply` : the flux of an affine field out of the surface;
* `ClosedSurface.sum_cones` : the cones over the faces add up to the volume, wherever their
  common apex is;
* `ClosedSurface.sum_coneMoments` : and so do their first moments, to one and the same vector.
-/

namespace Polyfield

/-- Faces that close up around a volume.  Each has a vector area, a barycenter and a sign, which
is `1` if the vector area points out of the volume and `-1` if it points into it. -/
structure ClosedSurface {ι : Type} (faces : List ι) (sign : ι → ℝ) (area center : ι → Vec3 ℝ)
    (volume : ℝ) : Prop where
  sum_area : (faces.map fun f => sign f • area f).sum = 0
  sum_moment : ∀ u : Vec3 ℝ,
    (faces.map fun f => (sign f * u.dot (center f)) • area f).sum = volume • u

/-- The sum of the diagonal of a tensor: the divergence of the linear field that it makes. -/
def Tensor.trace {R : Type} [Scalar R] (m : Tensor R) : R := m.row0.x + m.row1.y + m.row2.z

namespace ClosedSurface

variable {ι : Type} {faces : List ι} {sign : ι → ℝ} {area center : ι → Vec3 ℝ} {volume : ℝ}

/-! ## Fluxes -/

/-- **The flux of an affine field out of a closed surface** is the trace of its matrix times the
volume. -/
theorem sum_dot_apply (h : ClosedSurface faces sign area center volume) (A : Tensor ℝ)
    (b : Vec3 ℝ) : (faces.map fun f => sign f * (area f).dot (A.apply (center f) + b)).sum =
      A.trace * volume := by
  have hconstant : (faces.map fun f => sign f * (area f).dot b).sum = 0 := by
    have h0 := congrArg (fun v => b.dot v) h.sum_area
    simp only [Vec3.dot_sum, Vec3.dot_smul, Vec3.dot_zero] at h0
    simpa only [Vec3.dot_comm b] using h0
  -- row by row, each in the direction of its component
  have hrow : ∀ e r : Vec3 ℝ, (faces.map fun f =>
      sign f * (r.dot (center f) * e.dot (area f))).sum = volume * e.dot r := by
    intro e r
    have hr := congrArg (fun v => e.dot v) (h.sum_moment r)
    simpa only [Vec3.dot_sum, Vec3.dot_smul, mul_assoc] using hr
  have hsplit : ∀ f, sign f * (area f).dot (A.apply (center f) + b) =
      sign f * (A.row0.dot (center f) * Vec3.dot ⟨1, 0, 0⟩ (area f)) +
        (sign f * (A.row1.dot (center f) * Vec3.dot ⟨0, 1, 0⟩ (area f)) +
          (sign f * (A.row2.dot (center f) * Vec3.dot ⟨0, 0, 1⟩ (area f)) +
            sign f * (area f).dot b)) := by
    intro f
    simp only [Vec3.dot, Tensor.apply, Vec3.add_x, Vec3.add_y, Vec3.add_z]
    ring
  simp only [hsplit, List.sum_map_add, hrow, hconstant]
  simp only [Vec3.dot, Tensor.trace]
  ring

/-! ## Cones -/

/-- **The cones over the faces add up to the volume**, whatever their common apex: they are the
fluxes of a field of divergence one that points away from the apex. -/
theorem sum_cones (h : ClosedSurface faces sign area center volume) (y : Vec3 ℝ) :
    (faces.map fun f => sign f * (area f).dot (center f - y) / 3).sum = volume := by
  have hflux := h.sum_dot_apply ⟨⟨1 / 3, 0, 0⟩, ⟨0, 1 / 3, 0⟩, ⟨0, 0, 1 / 3⟩⟩ (-(1 / 3 : ℝ) • y)
  have htrace : Tensor.trace (⟨⟨1 / 3, 0, 0⟩, ⟨0, 1 / 3, 0⟩, ⟨0, 0, 1 / 3⟩⟩ : Tensor ℝ) = 1 := by
    norm_num [Tensor.trace]
  rw [htrace, one_mul] at hflux
  rw [← hflux]
  refine congrArg List.sum (List.map_congr_left fun f _ => ?_)
  simp only [Vec3.dot, Tensor.apply, Vec3.add_x, Vec3.add_y, Vec3.add_z, Vec3.sub_x, Vec3.sub_y,
    Vec3.sub_z, Vec3.smul_x, Vec3.smul_y, Vec3.smul_z]
  ring

/-- The first moment does not depend on the origin. -/
theorem sum_moment_sub (h : ClosedSurface faces sign area center volume) (u y : Vec3 ℝ) :
    (faces.map fun f => (sign f * u.dot (center f - y)) • area f).sum = volume • u := by
  have hsplit : ∀ f, (sign f * u.dot (center f - y)) • area f =
      (sign f * u.dot (center f)) • area f - u.dot y • (sign f • area f) := by
    intro f
    rw [Vec3.dot_sub]
    module
  simp only [hsplit, sum_map_sub, h.sum_moment, ← smul_sum_map, h.sum_area, smul_zero, sub_zero]

/-- The first moment, with a fixed vector in place of a direction. -/
theorem sum_dot_smul_center (h : ClosedSurface faces sign area center volume) (y : Vec3 ℝ) :
    (faces.map fun f => (sign f * (area f).dot y) • center f).sum = volume • y := by
  refine Vec3.eq_of_forall_dot_eq fun u => ?_
  have hu := congrArg (fun v => y.dot v) (h.sum_moment u)
  simp only [Vec3.dot_sum, Vec3.dot_smul] at hu ⊢
  rw [Vec3.dot_comm u y, ← hu]
  refine congrArg List.sum (List.map_congr_left fun f _ => ?_)
  rw [Vec3.dot_comm (area f) y]
  ring

/-- **The first moments of the cones do not depend on their common apex.** -/
theorem sum_coneMoments (h : ClosedSurface faces sign area center volume) (y : Vec3 ℝ) :
    (faces.map fun f => (sign f * (area f).dot (center f - y) / 3) •
        ((3 / 4 : ℝ) • center f + (1 / 4 : ℝ) • y)).sum =
      (1 / 4 : ℝ) • (faces.map fun f => (sign f * (area f).dot (center f)) • center f).sum := by
  have hterm : ∀ f, (sign f * (area f).dot (center f - y) / 3) •
      ((3 / 4 : ℝ) • center f + (1 / 4 : ℝ) • y) =
      (1 / 4 : ℝ) • (sign f * (area f).dot (center f)) • center f -
        ((1 / 4 : ℝ) • (sign f * (area f).dot y) • center f -
          (sign f * (area f).dot (center f - y) / 3) • (1 / 4 : ℝ) • y) := by
    intro f
    rw [Vec3.dot_sub]
    module
  simp only [hterm, sum_map_sub, ← smul_sum_map, h.sum_dot_smul_center, sum_map_smul, h.sum_cones]
  module

end ClosedSurface

/-! ## Surfaces of polygons -/

section Sides

variable {ι : Type} {faces : List ι} {sign : ι → ℝ} {corners : ι → List (Vec3 ℝ)}

/-- The volume that some faces with signs enclose. -/
noncomputable def enclosedVolume (faces : List ι) (sign : ι → ℝ) (corners : ι → List (Vec3 ℝ)) :
    ℝ :=
  (faces.map fun f => sign f *
    (Polygon.vectorArea (corners f)).dot (Polygon.geometry (corners f)).center / 3).sum

/-- The sides of some faces with signs cancel: every function that changes its sign with the
direction of a side adds up to zero along them. -/
def SidesCancel (faces : List ι) (sign : ι → ℝ) (corners : ι → List (Vec3 ℝ)) : Prop :=
  ∀ G : Vec3 ℝ → Vec3 ℝ → Vec3 ℝ, (∀ a b, G a b = -G b a) →
    (faces.map fun f => sign f • ((cyclicPairs (corners f)).map fun s => G s.1 s.2).sum).sum = 0

/-- **Convex faces whose sides cancel make a closed surface.** -/
theorem ClosedSurface.ofSides (hface : ∀ f ∈ faces, ConvexFace (corners f))
    (hcancel : SidesCancel faces sign corners) :
    ClosedSurface faces sign (fun f => Polygon.vectorArea (corners f))
      (fun f => (Polygon.geometry (corners f)).center) (enclosedVolume faces sign corners) where
  sum_area := by
    simp only [Polygon.vectorArea_eq_sum_cross]
    refine hcancel (fun a b => (1 / 2 : ℝ) • a.cross b) fun a b => ?_
    rw [Vec3.cross_comm, smul_neg]
  sum_moment u := by
    have hsides : (faces.map fun f => sign f •
        ((cyclicPairs (corners f)).map fun s => Polygon.sideMoment u s.1 s.2).sum).sum = 0 := by
      refine hcancel (Polygon.sideMoment u) fun a b => ?_
      rw [Polygon.sideMoment, Polygon.sideMoment, Vec3.cross_comm, smul_neg, add_comm a b]
    have hterm : ∀ f ∈ faces, (sign f * u.dot (Polygon.geometry (corners f)).center) •
        Polygon.vectorArea (corners f) =
        sign f • ((cyclicPairs (corners f)).map fun s => Polygon.sideMoment u s.1 s.2).sum +
          (sign f * (Polygon.vectorArea (corners f)).dot
            (Polygon.geometry (corners f)).center / 3) • u := by
      intro f hf
      rw [mul_smul, (hface f hf).dot_center_smul_vectorArea u]
      module
    rw [List.map_congr_left hterm, List.sum_map_add, hsides, zero_add, sum_map_smul]
    rfl

end Sides

end Polyfield
