import Mathlib.Data.List.GetD
import Mathlib.Tactic.FinCases
import Mathlib.Tactic.FieldSimp
import Polyfield.Cell.Average
import Polyfield.Proofs.ExactArithmetic
import Polyfield.Proofs.SparseSum
import Polyfield.Proofs.Success

/-!
# Quadrature of affine functions

A rule integrates affine functions exactly as soon as its weights add up to one and its nodes to
the centroid (`SimplexRule.IsCentered`), and the rules of all levels do.

* `SimplexRule.isCentered_triangle`, `SimplexRule.isCentered_tetra` : for the three corners of a
  triangle and the four of a tetrahedron;
* `SimplexRule.IsCentered.foldl_addIntegral` : the integral of an affine function over some
  simplices is their measure times its value at their common centroid;
* `scale_integral` : divided by the measure it is that value.
-/

namespace Polyfield

/-! ## Integrals of any function -/

namespace SimplexRule

variable {R : Type} [Scalar R] {n : Nat} {rule : SimplexRule R n} {t : R}
  {f : SpaceTimeFunction R}

theorem requireDim_eq_ok {dim : Nat} (h : dim = 1 ∨ dim = 3 ∨ dim = 9) :
    requireDim dim = .ok () := by
  rcases h with rfl | rfl | rfl <;> rfl

theorem triangleFor_eq_ok {dim : Nat} (level : Level) (h : dim = 1 ∨ dim = 3 ∨ dim = 9) :
    triangleFor level dim = .ok (triangle level : SimplexRule R 3) := by
  rw [triangleFor, checkDim, if_pos h]
  rfl

theorem tetraFor_eq_ok {dim : Nat} (level : Level) (h : dim = 1 ∨ dim = 3 ∨ dim = 9) :
    tetraFor level dim = .ok (tetra level : SimplexRule R 4) := by
  rw [tetraFor, checkDim, if_pos h]
  rfl

/-- A buffer with the integral of a function over a simplex added to it. -/
def addIntegral (rule : SimplexRule R n) (t : R) (f : SpaceTimeFunction R) (buf : Buffer R)
    (s : Simplex R n) : Buffer R :=
  (rule.samples s.corners).foldl
    (fun out p => addScaled (s.measure * p.weight) (f.components t p.point) out) buf

/-- Integration does not fail for functions of an admitted number of components. -/
theorem integrate_eq_ok (hdim : requireDim f.dim = .ok ()) (s : Simplex R n) (buf : Buffer R) :
    rule.integrate t s f buf = .ok (rule.addIntegral t f buf s) := by
  rw [integrate, weightedValues, hdim, ok_bind, pure_eq_ok, ok_bind, List.foldl_map]
  rfl

theorem integrateAll_eq_ok (hdim : requireDim f.dim = .ok ()) (ss : List (Simplex R n))
    (buf : Buffer R) :
    rule.integrateAll t ss f buf = .ok (ss.foldl (rule.addIntegral t f) buf) := by
  rw [integrateAll]
  exact foldlM_eq_foldl (fun out s _ => integrate_eq_ok hdim s out) buf

theorem length_addIntegral (buf : Buffer R) (s : Simplex R n) :
    (rule.addIntegral t f buf s).length = buf.length := by
  rw [addIntegral]
  induction rule.samples s.corners generalizing buf with
  | nil => rfl
  | cons p ps ih => rw [List.foldl_cons, ih, length_addScaled]

theorem length_foldl_addIntegral (ss : List (Simplex R n)) (buf : Buffer R) :
    (ss.foldl (rule.addIntegral t f) buf).length = buf.length := by
  induction ss generalizing buf with
  | nil => rfl
  | cons s ss ih => rw [List.foldl_cons, ih, length_addIntegral]

end SimplexRule

/-! ## Vector functions -/

/-- The value of a function of three components as a vector. -/
def SpaceTimeFunction.vector {R : Type} [Scalar R] (f : SpaceTimeFunction R) (t : R) (x : Vec3 R) :
    Vec3 R :=
  ⟨(f.components t x).getD 0 0, (f.components t x).getD 1 0, (f.components t x).getD 2 0⟩

theorem SpaceTimeFunction.components_eq_vector {R : Type} [Scalar R] {f : SpaceTimeFunction R}
    (h : f.dim = 3) (t : R) (x : Vec3 R) : f.components t x = (f.vector t x).toList := by
  obtain ⟨a, b, c, habc⟩ := List.length_eq_three.1 ((f.length_components t x).trans h)
  simp [vector, habc, Vec3.toList]

/-! ## Affine functions -/

/-- A mean of values of an affine form is its value at the mean of the points. -/
theorem sum_affine {ι : Type} {xs : List ι} {w : ι → ℝ} {x : ι → Vec3 ℝ} {W : ℝ} {y : Vec3 ℝ}
    (hW : (xs.map w).sum = W) (hy : (xs.map fun i => w i • x i).sum = W • y) (g : Vec3 ℝ) (k : ℝ) :
    (xs.map fun i => w i * (g.dot (x i) + k)).sum = W * (g.dot y + k) := by
  have hdot := congrArg (fun v => g.dot v) hy
  simp only [Vec3.dot_sum, Vec3.dot_smul] at hdot
  simp only [mul_add, List.sum_map_add, hdot, List.sum_map_mul_right, hW]

/-- At a time, each component of a function is affine in the position. -/
def SpaceTimeFunction.IsAffineAt (f : SpaceTimeFunction ℝ) (t : ℝ) : Prop :=
  ∃ (g : Fin f.dim → Vec3 ℝ) (k : Fin f.dim → ℝ),
    ∀ (x : Vec3 ℝ) (i : Fin f.dim), (f.value t x)[i] = (g i).dot x + k i

namespace SpaceTimeFunction.IsAffineAt

variable {f : SpaceTimeFunction ℝ} {t : ℝ}

/-- The components of an affine function by their positions. -/
theorem exists_component (hf : f.IsAffineAt t) (j : Nat) :
    ∃ (g : Vec3 ℝ) (k : ℝ), ∀ x, (f.components t x).getD j 0 = g.dot x + k := by
  obtain ⟨g, k, h⟩ := hf
  by_cases hj : j < f.dim
  · refine ⟨g ⟨j, hj⟩, k ⟨j, hj⟩, fun x => ?_⟩
    rw [← h x ⟨j, hj⟩]
    simp [components, hj]
  · refine ⟨0, 0, fun x => ?_⟩
    rw [List.getD_eq_default _ _ (by rw [length_components]; omega)]
    simp

theorem sum_component (hf : f.IsAffineAt t) {ι : Type} {xs : List ι} {w : ι → ℝ}
    {x : ι → Vec3 ℝ} {W : ℝ} {y : Vec3 ℝ} (hW : (xs.map w).sum = W)
    (hy : (xs.map fun i => w i • x i).sum = W • y) (j : Nat) :
    (xs.map fun i => w i * (f.components t (x i)).getD j 0).sum =
      W * (f.components t y).getD j 0 := by
  obtain ⟨g, k, h⟩ := hf.exists_component j
  simp only [h]
  exact sum_affine hW hy g k

/-- The part of an affine vector function along a direction. -/
theorem exists_dot_vector (hf : f.IsAffineAt t) (n : Vec3 ℝ) :
    ∃ (g : Vec3 ℝ) (k : ℝ), ∀ x, n.dot (f.vector t x) = g.dot x + k := by
  obtain ⟨g₀, k₀, h₀⟩ := hf.exists_component 0
  obtain ⟨g₁, k₁, h₁⟩ := hf.exists_component 1
  obtain ⟨g₂, k₂, h₂⟩ := hf.exists_component 2
  refine ⟨n.x • g₀ + n.y • g₁ + n.z • g₂, n.x * k₀ + n.y * k₁ + n.z * k₂, fun x => ?_⟩
  simp only [vector, h₀, h₁, h₂, Vec3.dot, Vec3.add_x, Vec3.add_y, Vec3.add_z, Vec3.smul_x,
    Vec3.smul_y, Vec3.smul_z]
  ring

end SpaceTimeFunction.IsAffineAt

/-! ## Sums in a buffer -/

/-- What `addScaled` adds to the entries of a buffer. -/
theorem addScaled_eq_mapIdx (a : ℝ) (vs : List ℝ) (buf : Buffer ℝ) :
    addScaled a vs buf = buf.mapIdx fun j o => o + a * vs.getD j 0 := by
  induction buf generalizing vs with
  | nil => cases vs <;> rfl
  | cons o os ih =>
    cases vs with
    | nil => exact (List.mapIdx_eq_iff.2 fun i => by simp [addScaled]).symm
    | cons v vs =>
      rw [addScaled, ih, List.mapIdx_cons]
      rfl

/-- Adding several values to a buffer adds their sum. -/
theorem foldl_addScaled {ι : Type} (xs : List ι) (w : ι → ℝ) (v : ι → List ℝ) (buf : Buffer ℝ) :
    xs.foldl (fun out i => addScaled (w i) (v i) out) buf =
      buf.mapIdx fun j o => o + (xs.map fun i => w i * (v i).getD j 0).sum := by
  induction xs generalizing buf with
  | nil => exact (List.mapIdx_eq_iff.2 fun i => by simp).symm
  | cons i xs ih =>
    rw [List.foldl_cons, ih, addScaled_eq_mapIdx, List.mapIdx_mapIdx]
    simp only [Function.comp_def, List.map_cons, List.sum_cons, add_assoc]

/-! ## Rules -/

/-- The mean of the corners of a simplex. -/
noncomputable def Simplex.centroid {n : Nat} (s : Simplex ℝ n) : Vec3 ℝ :=
  (1 / n : ℝ) • s.corners.toList.sum

namespace SimplexRule

variable {n : Nat} {rule : SimplexRule ℝ n} {f : SpaceTimeFunction ℝ} {t : ℝ}

/-- The weights of a rule add up to one, and its nodes to the centroid. -/
structure IsCentered (rule : SimplexRule ℝ n) : Prop where
  sum_weight : (rule.nodes.map (·.weight)).sum = 1
  sum_barycentric : ∀ j : Fin n,
    (rule.nodes.map fun node => node.weight * node.barycentric[j]).sum = 1 / n

theorem isCentered_triangle (level : Level) : (triangle level : SimplexRule ℝ 3).IsCentered := by
  constructor
  · cases level <;> simp [triangle, triangleCenter, triangleThree, triangleFour] <;> norm_num
  · intro j
    cases level <;> fin_cases j <;>
      simp [triangle, triangleCenter, triangleThree, triangleFour] <;> norm_num

/-- The coordinates of a node add up to one. -/
theorem tetraNear_add : (tetraNear : ℝ) + 3 * tetraFar = 1 := by
  simp only [tetraNear, tetraFar]
  push_cast
  ring

theorem isCentered_tetra (level : Level) : (tetra level : SimplexRule ℝ 4).IsCentered := by
  have hsum := tetraNear_add
  constructor
  · cases level <;> simp [tetra, tetraCenter, tetraFour, tetraFive] <;> norm_num
  · intro j
    cases level <;> fin_cases j <;>
      simp [tetra, tetraCenter, tetraFour, tetraFive] <;> linarith

/-- A node as a sum over the corners. -/
theorem pointIn_eq (node : Node ℝ n) (corners : Vector (Vec3 ℝ) n) :
    node.pointIn corners =
      ((List.finRange n).map fun j => node.barycentric[j] • corners[j]).sum := by
  rw [Node.pointIn, total_eq_sum]
  refine congrArg List.sum (List.ext_getElem (by simp) fun i _ _ => ?_)
  simp

/-- **The weighted nodes of a centered rule add up to the centroid.** -/
theorem IsCentered.sum_pointIn (h : rule.IsCentered) (s : Simplex ℝ n) :
    (rule.nodes.map fun node => node.weight • node.pointIn s.corners).sum = s.centroid := by
  have hcorners : s.corners.toList.sum = ((List.finRange n).map fun j => s.corners[j]).sum := by
    refine congrArg List.sum (List.ext_getElem (by simp) fun i _ _ => ?_)
    simp
  simp only [pointIn_eq, smul_sum_map, smul_smul]
  rw [sum_map_sum_comm, Simplex.centroid, hcorners, smul_sum_map]
  refine congrArg List.sum (List.map_congr_left fun j _ => ?_)
  rw [sum_map_smul, h.sum_barycentric]

/-! ## Integrals of affine functions -/

/-- The integral of an affine function over a simplex. -/
theorem IsCentered.addIntegral_affine (h : rule.IsCentered) (hf : f.IsAffineAt t)
    (buf : Buffer ℝ) (s : Simplex ℝ n) :
    rule.addIntegral t f buf s = addScaled s.measure (f.components t s.centroid) buf := by
  have hvalue := fun j => hf.sum_component (W := 1) (y := s.centroid) h.sum_weight
    (by rw [h.sum_pointIn, one_smul]) j
  rw [addIntegral, samples, List.foldl_map, foldl_addScaled, addScaled_eq_mapIdx]
  simp only [mul_assoc, List.sum_map_mul_left, hvalue, one_mul]

/-- **The integral of an affine function** over simplices of a common centroid. -/
theorem IsCentered.foldl_addIntegral (h : rule.IsCentered) (hf : f.IsAffineAt t)
    {ss : List (Simplex ℝ n)} {M : ℝ} {y : Vec3 ℝ} (hM : (ss.map (·.measure)).sum = M)
    (hy : (ss.map fun s => s.measure • s.centroid).sum = M • y) (buf : Buffer ℝ) :
    ss.foldl (rule.addIntegral t f) buf = addScaled M (f.components t y) buf := by
  have hstep : rule.addIntegral t f =
      fun out s => addScaled s.measure (f.components t s.centroid) out :=
    funext fun out => funext fun s => h.addIntegral_affine hf out s
  rw [hstep, foldl_addScaled, addScaled_eq_mapIdx]
  simp only [hf.sum_component hM hy]

end SimplexRule

/-- The integral of an affine function over its domain, divided by the measure. -/
theorem scale_integral {M : ℝ} (hM : M ≠ 0) (vs : List ℝ) :
    scale (1 / M) (addScaled M vs (List.replicate vs.length 0)) = vs := by
  rw [addScaled_eq_mapIdx]
  refine List.ext_getElem (by simp [scale]) fun i _ hi => ?_
  simp [scale, hi]
  field_simp

end Polyfield
