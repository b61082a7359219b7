import Mathlib.Tactic.Ring
import Polyfield.Proofs.AffineQuadrature

/-!
# Quadrature of quadratic functions

A triangle can be halved at the midpoint of a side.  The means of a quadratic function over both
halves, as the rule of three nodes takes them, make twice the mean over the triangle; for an affine
function this already holds of the values at the centroids.

* `IsQuadratic` : polynomials of degree at most two in the position;
* `IsQuadratic.mean_halves` : the means over the halves of a triangle;
* `SpaceTimeFunction.IsQuadraticAt.isQuadratic_dot_vector` : the part of a quadratic vector
  function along a direction is quadratic.
-/

namespace Polyfield

/-! ## Tensors as linear maps -/

theorem Vec3.add_dot (a b c : Vec3 ℝ) : (a + b).dot c = a.dot c + b.dot c := by
  rw [dot_comm, dot_add, dot_comm c, dot_comm c]

theorem Tensor.apply_add (A : Tensor ℝ) (x y : Vec3 ℝ) :
    A.apply (x + y) = A.apply x + A.apply y := by
  ext <;> simp only [apply, Vec3.dot_add, Vec3.add_x, Vec3.add_y, Vec3.add_z]

theorem Tensor.apply_smul (A : Tensor ℝ) (s : ℝ) (x : Vec3 ℝ) :
    A.apply (s • x) = s • A.apply x := by
  ext <;> simp only [apply, Vec3.dot_smul, Vec3.smul_x, Vec3.smul_y, Vec3.smul_z]

/-! ## Quadratic functions -/

/-- A polynomial of degree at most two in the position. -/
def IsQuadratic (φ : Vec3 ℝ → ℝ) : Prop :=
  ∃ (A : Tensor ℝ) (g : Vec3 ℝ) (k : ℝ), ∀ x, φ x = x.dot (A.apply x) + g.dot x + k

/-- At a time, each component of a function is a polynomial of degree at most two. -/
def SpaceTimeFunction.IsQuadraticAt (f : SpaceTimeFunction ℝ) (t : ℝ) : Prop :=
  ∀ i : Fin f.dim, IsQuadratic fun x => (f.value t x).get i

namespace IsQuadratic

variable {φ ψ : Vec3 ℝ → ℝ}

theorem zero : IsQuadratic fun _ => 0 :=
  ⟨⟨0, 0, 0⟩, 0, 0, fun x => by simp [Tensor.apply, Vec3.dot]⟩

theorem add (hφ : IsQuadratic φ) (hψ : IsQuadratic ψ) : IsQuadratic fun x => φ x + ψ x := by
  obtain ⟨A, g, k, hφ⟩ := hφ
  obtain ⟨B, h, l, hψ⟩ := hψ
  refine ⟨⟨A.row0 + B.row0, A.row1 + B.row1, A.row2 + B.row2⟩, g + h, k + l, fun x => ?_⟩
  simp only [hφ, hψ, Vec3.dot, Tensor.apply, Vec3.add_x, Vec3.add_y, Vec3.add_z]
  ring

theorem const_mul (hφ : IsQuadratic φ) (s : ℝ) : IsQuadratic fun x => s * φ x := by
  obtain ⟨A, g, k, hφ⟩ := hφ
  refine ⟨⟨s • A.row0, s • A.row1, s • A.row2⟩, s • g, s * k, fun x => ?_⟩
  simp only [hφ, Vec3.dot, Tensor.apply, Vec3.smul_x, Vec3.smul_y, Vec3.smul_z]
  ring

end IsQuadratic

/-- The part of a quadratic vector function along a direction. -/
theorem SpaceTimeFunction.IsQuadraticAt.isQuadratic_dot_vector {f : SpaceTimeFunction ℝ} {t : ℝ}
    (hf : f.IsQuadraticAt t) (n : Vec3 ℝ) : IsQuadratic fun x => n.dot (f.vector t x) := by
  have hcomponent : ∀ j : Nat, IsQuadratic fun x => (f.components t x).getD j 0 := by
    intro j
    by_cases hj : j < f.dim
    · simpa [components, hj, Vector.get] using hf ⟨j, hj⟩
    · simpa [components, hj] using IsQuadratic.zero
  exact ((hcomponent 0).const_mul n.x).add ((hcomponent 1).const_mul n.y)
    |>.add ((hcomponent 2).const_mul n.z)

/-! ## Means over triangles -/

/-- The mean of a function over a simplex, by the nodes of a rule. -/
noncomputable def SimplexRule.mean {n : Nat} (rule : SimplexRule ℝ n)
    (corners : Vector (Vec3 ℝ) n) (φ : Vec3 ℝ → ℝ) : ℝ :=
  ((rule.samples corners).map fun p => p.weight * φ p.point).sum

/-- Samples of the weights of a simplex integrate over it. -/
theorem SimplexRule.sum_samples_measure {n : Nat} (rule : SimplexRule ℝ n) (s : Simplex ℝ n)
    (φ : Vec3 ℝ → ℝ) :
    (((rule.samples s.corners).map fun p => (⟨p.weight * s.measure, p.point⟩ : Sample ℝ)).map
        fun p => p.weight * φ p.point).sum = s.measure * rule.mean s.corners φ := by
  rw [mean, List.map_map, ← List.sum_map_mul_left]
  refine congrArg List.sum (List.map_congr_left fun p _ => ?_)
  rw [Function.comp_apply]
  ring

theorem SimplexRule.mean_triangleThree (p q r : Vec3 ℝ) (φ : Vec3 ℝ → ℝ) :
    triangleThree.mean #v[p, q, r] φ =
      1 / 3 * (φ ((2 / 3 : ℝ) • p + (1 / 6 : ℝ) • q + (1 / 6 : ℝ) • r) +
        φ ((1 / 6 : ℝ) • p + (2 / 3 : ℝ) • q + (1 / 6 : ℝ) • r) +
        φ ((1 / 6 : ℝ) • p + (1 / 6 : ℝ) • q + (2 / 3 : ℝ) • r)) := by
  simp [mean, samples, triangleThree, Node.pointIn, total_eq_sum, mul_add, add_assoc]

/-- **The means of a quadratic function over the halves of a triangle** make twice its mean over
the triangle. -/
theorem IsQuadratic.mean_halves {φ : Vec3 ℝ → ℝ} (hφ : IsQuadratic φ) (a b c : Vec3 ℝ) :
    SimplexRule.triangleThree.mean #v[Vec3.midpoint a b, c, a] φ +
        SimplexRule.triangleThree.mean #v[Vec3.midpoint a b, c, b] φ =
      2 * SimplexRule.triangleThree.mean #v[c, a, b] φ := by
  obtain ⟨A, g, k, hφ⟩ := hφ
  simp only [SimplexRule.mean_triangleThree, hφ, Vec3.midpoint_eq, Tensor.apply_add,
    Tensor.apply_smul, Vec3.dot_add, Vec3.dot_smul, Vec3.add_dot, Vec3.smul_dot]
  ring

end Polyfield
