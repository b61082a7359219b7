import Mathlib.Algebra.BigOperators.Group.List.Basic
import Mathlib.Algebra.Module.BigOperators
import Mathlib.Analysis.SpecialFunctions.Sqrt
import Mathlib.Tactic.LinearCombination
import Polyfield.Vec3

/-!
# Exact arithmetic

The real numbers as scalars: the reading in which the quantities of a mesh are the mathematics
they stand for.

* Points and vectors with real components are a module over the reals, and `total` is the sum of
  a list (`total_eq_sum`).
* `Vec3.dot` and `Vec3.cross` are bilinear; `Vec3.cross_eq_smul_of_orthogonal` says that the
  vector product of two vectors of a plane is a multiple of the unit normal of the plane, and
  `Vec3.norm_smul_unit` what its length is then.
-/

namespace Polyfield

/-- The real numbers, with exact operations. -/
noncomputable instance : Scalar ℝ where
  sqrt := Real.sqrt
  abs x := |x|
  ceilNat x := ⌈x⌉₊
  decideLT := inferInstance
  decideLE := inferInstance

namespace Scalar

@[simp] theorem sqrt_real (x : ℝ) : Scalar.sqrt x = Real.sqrt x := rfl

@[simp] theorem abs_real (x : ℝ) : Scalar.abs x = |x| := rfl

@[simp] theorem ratio_real (p q : Nat) : (ratio p q : ℝ) = (p : ℝ) / (q : ℝ) := rfl

@[simp] theorem half_real : (half : ℝ) = 1 / 2 := by simp [half]

end Scalar

/-- Adding from left to right gives the sum. -/
theorem total_eq_sum {M : Type} [AddCommMonoid M] (xs : List M) : total xs = xs.sum :=
  List.sum_eq_foldl.symm

theorem total_perm {M : Type} [AddCommMonoid M] {xs ys : List M} (h : xs.Perm ys) :
    total xs = total ys := by
  rw [total_eq_sum, total_eq_sum, h.sum_eq]

/-- The sum of a loop that adds up terms. -/
theorem foldl_add_eq_sum {ι M : Type} [AddCommMonoid M] (g : ι → M) (xs : List ι) :
    xs.foldl (fun acc i => acc + g i) 0 = (xs.map g).sum := by
  rw [List.sum_eq_foldl, List.foldl_map]

theorem sum_map_sub {ι M : Type} [AddCommGroup M] (xs : List ι) (f g : ι → M) :
    (xs.map fun i => f i - g i).sum = (xs.map f).sum - (xs.map g).sum := by
  induction xs with
  | nil => simp
  | cons x xs ih =>
    simp only [List.map_cons, List.sum_cons, ih]
    abel

/-- A sum over lists in a row. -/
theorem sum_flatMap_map {ι κ M : Type} [AddCommMonoid M] (xs : List ι) (g : ι → List κ)
    (h : κ → M) : ((xs.flatMap g).map h).sum = (xs.map fun i => ((g i).map h).sum).sum := by
  induction xs with
  | nil => rfl
  | cons x xs ih =>
    rw [List.flatMap_cons, List.map_append, List.sum_append, ih, List.map_cons, List.sum_cons]

/-- A multiple of a sum is the sum of the multiples. -/
theorem smul_sum_map {ι M : Type} [AddCommGroup M] [Module ℝ M] (s : ℝ) (xs : List ι)
    (f : ι → M) : s • (xs.map f).sum = (xs.map fun i => s • f i).sum := by
  rw [List.smul_sum, List.map_map]
  rfl

/-- A common vector can be taken out of a sum of its multiples. -/
theorem sum_map_smul {ι M : Type} [AddCommGroup M] [Module ℝ M] (xs : List ι) (f : ι → ℝ)
    (v : M) : (xs.map fun i => f i • v).sum = (xs.map f).sum • v := by
  rw [List.sum_smul, List.map_map]
  rfl

namespace Vec3

/-! ## Vectors as a module -/

noncomputable instance : AddCommGroup (Vec3 ℝ) where
  add_assoc a b c := by ext <;> simp [add_assoc]
  zero_add a := by ext <;> simp
  add_zero a := by ext <;> simp
  add_comm a b := by ext <;> simp [add_comm]
  neg_add_cancel a := by ext <;> simp
  sub_eq_add_neg a b := by ext <;> simp [sub_eq_add_neg]
  nsmul := nsmulRec
  zsmul := zsmulRec

noncomputable instance : Module ℝ (Vec3 ℝ) where
  one_smul a := by ext <;> simp
  mul_smul r s a := by ext <;> simp [mul_assoc]
  smul_zero r := by ext <;> simp
  smul_add r a b := by ext <;> simp [mul_add]
  add_smul r s a := by ext <;> simp [add_mul]
  zero_smul a := by ext <;> simp

theorem div_eq_smul (a : Vec3 ℝ) (s : ℝ) : a / s = s⁻¹ • a := by
  ext <;> simp [div_eq_inv_mul]

theorem midpoint_eq (a b : Vec3 ℝ) : midpoint a b = (1 / 2 : ℝ) • (a + b) := by
  rw [midpoint, Scalar.half_real]

/-- The components of a vector by their numbers. -/
def component {R : Type} (a : Vec3 R) : Fin 3 → R
  | 0 => a.x
  | 1 => a.y
  | 2 => a.z

@[simp] theorem component_zero (i : Fin 3) : (0 : Vec3 ℝ).component i = 0 := by
  fin_cases i <;> rfl

@[simp] theorem component_add (a b : Vec3 ℝ) (i : Fin 3) :
    (a + b).component i = a.component i + b.component i := by
  fin_cases i <;> rfl

@[simp] theorem component_smul (s : ℝ) (a : Vec3 ℝ) (i : Fin 3) :
    (s • a).component i = s * a.component i := by
  fin_cases i <;> rfl

theorem component_sum {ι : Type} (xs : List ι) (f : ι → Vec3 ℝ) (i : Fin 3) :
    (xs.map f).sum.component i = (xs.map fun j => (f j).component i).sum := by
  induction xs with
  | nil => simp
  | cons x xs ih => simp [ih]

/-! ## Scalar products -/

theorem dot_comm (a b : Vec3 ℝ) : a.dot b = b.dot a := by simp only [dot]; ring

@[simp] theorem dot_zero (a : Vec3 ℝ) : a.dot 0 = 0 := by simp [dot]

@[simp] theorem zero_dot (a : Vec3 ℝ) : (0 : Vec3 ℝ).dot a = 0 := by simp [dot]

theorem dot_add (a b c : Vec3 ℝ) : a.dot (b + c) = a.dot b + a.dot c := by
  simp only [dot, add_x, add_y, add_z]; ring

theorem dot_sub (a b c : Vec3 ℝ) : a.dot (b - c) = a.dot b - a.dot c := by
  simp only [dot, sub_x, sub_y, sub_z]; ring

theorem dot_neg (a b : Vec3 ℝ) : a.dot (-b) = -a.dot b := by
  simp only [dot, neg_x, neg_y, neg_z]; ring

theorem neg_dot (a b : Vec3 ℝ) : (-a).dot b = -a.dot b := by
  simp only [dot, neg_x, neg_y, neg_z]; ring

theorem dot_smul (s : ℝ) (a b : Vec3 ℝ) : a.dot (s • b) = s * a.dot b := by
  simp only [dot, smul_x, smul_y, smul_z]; ring

theorem smul_dot (s : ℝ) (a b : Vec3 ℝ) : (s • a).dot b = s * a.dot b := by
  simp only [dot, smul_x, smul_y, smul_z]; ring

theorem dot_div (s : ℝ) (a b : Vec3 ℝ) : a.dot (b / s) = a.dot b / s := by
  rw [div_eq_smul, dot_smul, div_eq_inv_mul]

theorem dot_sum {ι : Type} (a : Vec3 ℝ) (xs : List ι) (f : ι → Vec3 ℝ) :
    a.dot (xs.map f).sum = (xs.map fun i => a.dot (f i)).sum := by
  induction xs with
  | nil => simp
  | cons x xs ih => simp only [List.map_cons, List.sum_cons, dot_add, ih]

/-- Vectors are told apart by their scalar products. -/
theorem eq_of_forall_dot_eq {a b : Vec3 ℝ} (h : ∀ u : Vec3 ℝ, u.dot a = u.dot b) : a = b := by
  ext
  · simpa [dot] using h ⟨1, 0, 0⟩
  · simpa [dot] using h ⟨0, 1, 0⟩
  · simpa [dot] using h ⟨0, 0, 1⟩

/-! ## Lengths -/

theorem dot_self_nonneg (a : Vec3 ℝ) : 0 ≤ a.dot a := by
  have hxy : 0 ≤ a.x * a.x + a.y * a.y := add_nonneg (mul_self_nonneg _) (mul_self_nonneg _)
  exact add_nonneg hxy (mul_self_nonneg _)

theorem dot_self_eq_zero {a : Vec3 ℝ} : a.dot a = 0 ↔ a = 0 := by
  constructor
  · intro h
    simp only [dot] at h
    have hx := mul_self_nonneg a.x
    have hy := mul_self_nonneg a.y
    have hz := mul_self_nonneg a.z
    ext
    · exact mul_self_eq_zero.1 (by linarith)
    · exact mul_self_eq_zero.1 (by linarith)
    · exact mul_self_eq_zero.1 (by linarith)
  · rintro rfl
    exact dot_zero 0

theorem norm_nonneg (a : Vec3 ℝ) : 0 ≤ a.norm := Real.sqrt_nonneg _

theorem norm_mul_self (a : Vec3 ℝ) : a.norm * a.norm = a.dot a :=
  Real.mul_self_sqrt (dot_self_nonneg a)

theorem norm_eq_zero {a : Vec3 ℝ} : a.norm = 0 ↔ a = 0 := by
  rw [← dot_self_eq_zero, ← norm_mul_self, mul_self_eq_zero]

@[simp] theorem norm_zero : (0 : Vec3 ℝ).norm = 0 := by simp [norm]

theorem norm_smul (s : ℝ) (a : Vec3 ℝ) : (s • a).norm = |s| * a.norm := by
  rw [norm, norm, smul_dot, dot_smul, ← mul_assoc]
  exact (Real.sqrt_mul (mul_self_nonneg s) _).trans (by rw [Real.sqrt_mul_self_eq_abs]; rfl)

/-- The length of a multiple of a unit vector. -/
theorem norm_smul_unit {n : Vec3 ℝ} (hn : n.dot n = 1) {s : ℝ} (hs : 0 ≤ s) :
    (s • n).norm = s := by
  have h1 : n.norm = 1 := by rw [norm, hn]; exact Real.sqrt_one
  rw [norm_smul, h1, mul_one, abs_of_nonneg hs]

/-! ## Vector products -/

theorem cross_comm (a b : Vec3 ℝ) : a.cross b = -b.cross a := by
  ext <;> simp only [cross, neg_x, neg_y, neg_z] <;> ring

@[simp] theorem cross_self (a : Vec3 ℝ) : a.cross a = 0 := by
  ext <;> simp only [cross, zero_x, zero_y, zero_z] <;> ring

@[simp] theorem zero_cross (a : Vec3 ℝ) : (0 : Vec3 ℝ).cross a = 0 := by
  ext <;> simp [cross]

@[simp] theorem cross_zero (a : Vec3 ℝ) : a.cross 0 = 0 := by
  ext <;> simp [cross]

/-- Which side of a line a point lies on is a matter of a half space. -/
theorem dot_cross_sub (n d q a : Vec3 ℝ) :
    n.dot (d.cross (q - a)) = (n.cross d).dot q - (n.cross d).dot a := by
  simp only [dot, cross, sub_x, sub_y, sub_z]
  ring

/-- The area between two vectors of a plane, from their coordinates along a vector of the plane. -/
theorem dot_cross_of_dot_eq_zero {n d : Vec3 ℝ} (hd : n.dot d = 0) (a b : Vec3 ℝ) :
    d.dot d * n.dot (a.cross b) = d.dot a * n.dot (d.cross b) - d.dot b * n.dot (d.cross a) := by
  simp only [dot] at hd
  simp only [dot, cross]
  linear_combination (d.x * (a.y * b.z - a.z * b.y) + d.y * (a.z * b.x - a.x * b.z) +
    d.z * (a.x * b.y - a.y * b.x)) * hd

/-- The vector product of two vectors that are orthogonal to a unit vector is a multiple of it. -/
theorem cross_eq_smul_of_orthogonal {n a b : Vec3 ℝ} (hn : n.dot n = 1) (ha : n.dot a = 0)
    (hb : n.dot b = 0) : a.cross b = (n.dot (a.cross b)) • n := by
  simp only [dot] at hn ha hb
  ext <;> simp only [cross, dot, smul_x, smul_y, smul_z]
  · linear_combination (-(a.y * b.z - a.z * b.y)) * hn +
      (n.y * b.z - n.z * b.y) * ha - (n.y * a.z - n.z * a.y) * hb
  · linear_combination (-(a.z * b.x - a.x * b.z)) * hn +
      (n.z * b.x - n.x * b.z) * ha - (n.z * a.x - n.x * a.z) * hb
  · linear_combination (-(a.x * b.y - a.y * b.x)) * hn +
      (n.x * b.y - n.y * b.x) * ha - (n.x * a.y - n.y * a.x) * hb

end Vec3

end Polyfield
