import Mathlib.Algebra.BigOperators.Field
import Mathlib.Algebra.MvPolynomial.Degrees
import Mathlib.Algebra.MvPolynomial.Monad
import Mathlib.Data.Fin.Tuple.NatAntidiagonal
import Polyfield.Proofs.ConvexCombinations
import Polyfield.Proofs.QuadraticQuadrature

/-!
# Quadrature of polynomials

Every rule integrates the polynomials up to its degree exactly, over all simplices in space.  Put
into barycentric coordinates a polynomial keeps its degree, and all that a rule sees of it are the
moments of the nodes.  As the coordinates of a node add up to one, the moments of one degree
determine those of all lower degrees, so that the tables are looked at in their own degree only.

* `monomialMean`, `barycentricMean` : the mean of a monomial in the barycentric coordinates, and of
  a polynomial in them;
* `SimplexRule.isExact_of_degree` : a rule has the means of all monomials up to its degree if it has
  those of its degree;
* `SimplexRule.isExact_triangle`, `SimplexRule.isExact_tetra` : the rules of all levels do;
* `Simplex.mean`, `Simplex.totalDegree_pullback_le` : the mean of a polynomial in space, by way of
  barycentric coordinates, which do not raise its degree;
* `SimplexRule.certified_degrees` : what integration adds to a buffer.
-/

namespace Polyfield

open MvPolynomial
open scoped Nat

/-- A sum along a list of sums over something else. -/
theorem sum_map_finsetSum {ι κ : Type} (xs : List ι) (s : Finset κ) (g : ι → κ → ℝ) :
    (xs.map fun x => ∑ k ∈ s, g x k).sum = ∑ k ∈ s, (xs.map fun x => g x k).sum := by
  have hsums := Multiset.sum_map_sum (m := (xs : Multiset ι)) (s := s) (f := g)
  simpa only [Multiset.map_coe, Multiset.sum_coe] using hsums

/-! ## Means -/

/-- The mean, over a simplex of `n` corners, of the monomial of the barycentric coordinates with
exponents `k`. -/
noncomputable def monomialMean {n : Nat} (k : Fin n → ℕ) : ℝ :=
  ((n - 1)! * ∏ i, (k i)! : ℕ) / ((n - 1 + ∑ i, k i)! : ℕ)

/-- The mean, over a simplex, of a polynomial in the barycentric coordinates. -/
noncomputable def barycentricMean {n : Nat} (Q : MvPolynomial (Fin n) ℝ) : ℝ :=
  ∑ k ∈ Q.support, Q.coeff k * monomialMean k

theorem barycentricMean_monomial {n : Nat} (k : Fin n →₀ ℕ) (a : ℝ) :
    barycentricMean (monomial k a) = a * monomialMean k := by
  rcases eq_or_ne a 0 with rfl | ha
  · simp [barycentricMean]
  · rw [barycentricMean, support_monomial, if_neg ha, Finset.sum_singleton, coeff_monomial,
      if_pos rfl]

section Exponents

variable {n : Nat} (k : Fin n → ℕ) (i : Fin n)

/-- Exponents with one of them raised by one. -/
def raiseAt : Fin n → ℕ := k + Pi.single i 1

theorem raiseAt_self : raiseAt k i i = k i + 1 := by
  rw [raiseAt, Pi.add_apply, Pi.single_eq_same]

theorem raiseAt_of_ne {j : Fin n} (h : j ≠ i) : raiseAt k i j = k j := by
  rw [raiseAt, Pi.add_apply, Pi.single_eq_of_ne h, Nat.add_zero]

theorem sum_raiseAt : ∑ j, raiseAt k i j = ∑ j, k j + 1 := by
  simp [raiseAt, Finset.sum_add_distrib]

/-- A product over the coordinates gains a factor in one of them. -/
theorem prod_raiseAt {M : Type} [CommMonoid M] (f : Fin n → ℕ → M) {a : M}
    (hi : f i (k i + 1) = a * f i (k i)) : ∏ j, f j (raiseAt k i j) = a * ∏ j, f j (k j) := by
  have hothers : ∏ j ∈ Finset.univ.erase i, f j (raiseAt k i j) =
      ∏ j ∈ Finset.univ.erase i, f j (k j) :=
    Finset.prod_congr rfl fun j hj => by rw [raiseAt_of_ne k i (Finset.ne_of_mem_erase hj)]
  rw [← Finset.mul_prod_erase _ _ (Finset.mem_univ i), hothers, raiseAt_self, hi, mul_assoc,
    Finset.mul_prod_erase _ (fun j => f j (k j)) (Finset.mem_univ i)]

end Exponents

/-- **The means of one degree determine those of the degree below**, as the coordinates add up to
one. -/
theorem monomialMean_eq_sum {n : Nat} (hn : 0 < n) (k : Fin n → ℕ) :
    monomialMean k = ∑ i, monomialMean (raiseAt k i) := by
  have hfactors : ∀ i, ∏ j, (raiseAt k i j)! = (k i + 1) * ∏ j, (k j)! := fun i =>
    prod_raiseAt k i (fun _ m => m !) (Nat.factorial_succ _)
  have htotal : ∑ i, (k i + 1) = n - 1 + ∑ i, k i + 1 := by
    rw [Finset.sum_add_distrib, Finset.sum_const, Finset.card_univ, Fintype.card_fin, smul_eq_mul,
      Nat.mul_one]
    omega
  have hnumerators : ∑ i, (n - 1)! * ∏ j, (raiseAt k i j)! =
      (n - 1 + ∑ i, k i + 1) * ((n - 1)! * ∏ j, (k j)!) := by
    rw [← htotal, Finset.sum_mul]
    refine Finset.sum_congr rfl fun i _ => ?_
    rw [hfactors]
    ring
  simp only [monomialMean, sum_raiseAt]
  rw [← Finset.sum_div, ← Nat.cast_sum, hnumerators, ← Nat.add_assoc, Nat.factorial_succ,
    Nat.cast_mul (_ + 1), Nat.cast_mul (_ + 1), mul_div_mul_left]
  exact Nat.cast_ne_zero.2 (Nat.succ_ne_zero _)

namespace SimplexRule

variable {n : Nat} {rule : SimplexRule ℝ n}

/-! ## Moments -/

/-- What a rule takes for the mean of a monomial of the barycentric coordinates. -/
noncomputable def moment (rule : SimplexRule ℝ n) (k : Fin n → ℕ) : ℝ :=
  (rule.nodes.map fun node => node.weight * ∏ i, node.barycentric.get i ^ k i).sum

/-- A rule has the means of all monomials up to its degree. -/
def IsExact (rule : SimplexRule ℝ n) : Prop :=
  ∀ k : Fin n → ℕ, ∑ i, k i ≤ rule.degree → rule.moment k = monomialMean k

/-- **The moments of one degree determine those of the degree below**, as the coordinates of a node
add up to one. -/
theorem moment_eq_sum (h : ∀ node ∈ rule.nodes, ∑ i : Fin n, node.barycentric.get i = 1)
    (k : Fin n → ℕ) : rule.moment k = ∑ i, rule.moment (raiseAt k i) := by
  simp only [moment]
  rw [← sum_map_finsetSum]
  refine congrArg List.sum (List.map_congr_left fun node hnode => ?_)
  have hraise : ∀ i, ∏ j, node.barycentric.get j ^ raiseAt k i j =
      node.barycentric.get i * ∏ j, node.barycentric.get j ^ k j := fun i =>
    prod_raiseAt k i (fun j m => node.barycentric.get j ^ m) (pow_succ' _ _)
  simp only [hraise]
  rw [← Finset.mul_sum, ← Finset.sum_mul, h node hnode, one_mul]

/-- **A rule that has the means of its degree is exact.** -/
theorem isExact_of_degree (hn : 0 < n)
    (h : ∀ node ∈ rule.nodes, ∑ i : Fin n, node.barycentric.get i = 1)
    (hdegree : ∀ k ∈ List.Nat.antidiagonalTuple n rule.degree, rule.moment k = monomialMean k) :
    rule.IsExact := by
  intro k hk
  -- downwards from the degree of the rule
  induction hm : rule.degree - ∑ i, k i generalizing k with
  | zero => exact hdegree k (List.Nat.mem_antidiagonalTuple.2 (by omega))
  | succ m ih =>
    rw [moment_eq_sum h, monomialMean_eq_sum hn]
    refine Finset.sum_congr rfl fun i _ => ih (raiseAt k i) ?_ ?_
    · rw [sum_raiseAt]
      omega
    · rw [sum_raiseAt]
      omega

/-! ## The tables -/

theorem sum_barycentric_of_isInside (h : rule.IsInside) :
    ∀ node ∈ rule.nodes, ∑ i : Fin n, node.barycentric.get i = 1 := by
  intro node hnode
  rw [← (h node hnode).sum_eq_one, Fin.sum_univ_def]
  refine congrArg List.sum (List.ext_getElem (by simp) fun i _ _ => ?_)
  simp [Vector.get]

theorem monomialMean_three (k : Fin 3 → ℕ) : monomialMean k =
    (2 * ((k 0)! * (k 1)! * (k 2)!) : ℕ) / ((2 + (k 0 + k 1 + k 2))! : ℕ) := by
  rw [monomialMean, Fin.prod_univ_three, Fin.sum_univ_three]
  rfl

theorem isExact_triangle (level : Level) : (triangle level : SimplexRule ℝ 3).IsExact := by
  refine isExact_of_degree (by decide) (sum_barycentric_of_isInside (isInside_triangle level))
    fun k hk => ?_
  simp only [moment, monomialMean_three, Fin.prod_univ_three]
  cases level with
  | bary | barySubdiv =>
    change k ∈ List.Nat.antidiagonalTuple 3 1 at hk
    fin_cases hk <;> simp [triangle, triangleCenter, Vector.get] <;> norm_num [Nat.factorial]
  | higher =>
    change k ∈ List.Nat.antidiagonalTuple 3 2 at hk
    fin_cases hk <;> simp [triangle, triangleThree, Vector.get] <;> norm_num [Nat.factorial]
  | highest =>
    change k ∈ List.Nat.antidiagonalTuple 3 3 at hk
    fin_cases hk <;> simp [triangle, triangleFour, Vector.get] <;> norm_num [Nat.factorial]

theorem monomialMean_four (k : Fin 4 → ℕ) : monomialMean k =
    (6 * ((k 0)! * (k 1)! * (k 2)! * (k 3)!) : ℕ) / ((3 + (k 0 + k 1 + k 2 + k 3))! : ℕ) := by
  rw [monomialMean, Fin.prod_univ_four, Fin.sum_univ_four]
  rfl

/-- The squares of the coordinates of the nodes of four equal weights. -/
theorem tetraNear_sq_add : (tetraNear : ℝ) ^ 2 + 3 * tetraFar ^ 2 = 2 / 5 := by
  have hroot : √(5 : ℝ) ^ 2 = 5 := Real.sq_sqrt (by norm_num)
  simp only [tetraNear, tetraFar, Scalar.sqrt_real]
  push_cast
  linear_combination (12 / 400 : ℝ) * hroot

/-- The products of two of them. -/
theorem tetraNear_mul_add : (tetraNear : ℝ) * tetraFar + tetraFar ^ 2 = 1 / 10 := by
  have hroot : √(5 : ℝ) ^ 2 = 5 := Real.sq_sqrt (by norm_num)
  simp only [tetraNear, tetraFar, Scalar.sqrt_real]
  push_cast
  linear_combination (-2 / 400 : ℝ) * hroot

theorem isExact_tetra (level : Level) : (tetra level : SimplexRule ℝ 4).IsExact := by
  refine isExact_of_degree (by decide) (sum_barycentric_of_isInside (isInside_tetra level))
    fun k hk => ?_
  simp only [moment, monomialMean_four, Fin.prod_univ_four]
  cases level with
  | bary | barySubdiv =>
    change k ∈ List.Nat.antidiagonalTuple 4 1 at hk
    fin_cases hk <;> simp [tetra, tetraCenter, Vector.get] <;> norm_num [Nat.factorial]
  | higher =>
    have hsquares := tetraNear_sq_add
    have hproducts := tetraNear_mul_add
    change k ∈ List.Nat.antidiagonalTuple 4 2 at hk
    fin_cases hk <;> simp [tetra, tetraFour, Vector.get] <;> norm_num [Nat.factorial] <;> linarith
  | highest =>
    change k ∈ List.Nat.antidiagonalTuple 4 3 at hk
    fin_cases hk <;> simp [tetra, tetraFive, Vector.get] <;> norm_num [Nat.factorial]

/-! ## Polynomials -/

/-- **An exact rule has the means of all polynomials up to its degree** in the barycentric
coordinates. -/
theorem IsExact.sum_eval (h : rule.IsExact) {Q : MvPolynomial (Fin n) ℝ}
    (hQ : Q.totalDegree ≤ rule.degree) :
    (rule.nodes.map fun node => node.weight * eval node.barycentric.get Q).sum =
      barycentricMean Q := by
  have hdegree : ∀ k ∈ Q.support, ∑ i, k i ≤ rule.degree := fun k hk => by
    have hle := le_totalDegree hk
    rw [Finsupp.sum_fintype _ _ fun _ => rfl] at hle
    exact hle.trans hQ
  simp only [eval_eq', Finset.mul_sum]
  rw [sum_map_finsetSum, barycentricMean]
  refine Finset.sum_congr rfl fun k hk => ?_
  rw [← h k (hdegree k hk), moment, ← List.sum_map_mul_left]
  refine congrArg List.sum (List.map_congr_left fun node _ => ?_)
  ring

end SimplexRule

namespace Simplex

variable {n : Nat} (s : Simplex ℝ n)

/-- A coordinate in space as a polynomial in the barycentric coordinates. -/
noncomputable def coordinate (i : Fin 3) : MvPolynomial (Fin n) ℝ :=
  ∑ j : Fin n, C ((s.corners.get j).component i) * X j

/-- A polynomial in space put into barycentric coordinates. -/
noncomputable def pullback (P : MvPolynomial (Fin 3) ℝ) : MvPolynomial (Fin n) ℝ :=
  bind₁ s.coordinate P

/-- The mean of a polynomial over a simplex. -/
noncomputable def mean (P : MvPolynomial (Fin 3) ℝ) : ℝ := barycentricMean (s.pullback P)

theorem totalDegree_coordinate_le (i : Fin 3) : (s.coordinate i).totalDegree ≤ 1 := by
  refine totalDegree_finsetSum_le fun j _ => (totalDegree_mul _ _).trans ?_
  rw [totalDegree_C, totalDegree_X]

/-- **Barycentric coordinates do not raise the degree.** -/
theorem totalDegree_pullback_le (P : MvPolynomial (Fin 3) ℝ) :
    (s.pullback P).totalDegree ≤ P.totalDegree := by
  rw [pullback, P.as_sum, map_sum, ← P.as_sum]
  refine totalDegree_finsetSum_le fun k hk => ?_
  have hproduct : (∏ i ∈ k.support, s.coordinate i ^ k i).totalDegree ≤ ∑ i ∈ k.support, k i := by
    refine (totalDegree_finsetProd _ _).trans (Finset.sum_le_sum fun i _ => ?_)
    refine (totalDegree_pow _ _).trans ?_
    exact (Nat.mul_le_mul_left _ (s.totalDegree_coordinate_le i)).trans_eq (Nat.mul_one _)
  rw [bind₁_monomial]
  refine (totalDegree_mul _ _).trans ?_
  rw [totalDegree_C, Nat.zero_add]
  exact hproduct.trans (le_totalDegree hk)

/-- A polynomial at a node is its pullback at the barycentric coordinates of the node. -/
theorem eval_pullback (node : Node ℝ n) (P : MvPolynomial (Fin 3) ℝ) :
    eval node.barycentric.get (s.pullback P) =
      eval (node.pointIn s.corners).component P := by
  have hcoordinate : ∀ i, eval node.barycentric.get (s.coordinate i) =
      (node.pointIn s.corners).component i := fun i => by
    rw [SimplexRule.pointIn_eq, Vec3.component_sum, coordinate, map_sum, Fin.sum_univ_def]
    refine congrArg List.sum (List.map_congr_left fun j _ => ?_)
    simp [Vector.get, mul_comm]
  rw [pullback, eval, eval₂Hom_bind₁]
  exact congrArg (fun x => eval x P) (funext hcoordinate)

end Simplex

namespace SimplexRule

variable {n : Nat} {rule : SimplexRule ℝ n}

/-- **The mean of a polynomial over a simplex by an exact rule.** -/
theorem IsExact.mean_eq (h : rule.IsExact) (s : Simplex ℝ n) {P : MvPolynomial (Fin 3) ℝ}
    (hP : P.totalDegree ≤ rule.degree) :
    rule.mean s.corners (fun x => eval x.component P) = s.mean P := by
  rw [Simplex.mean, ← h.sum_eval ((s.totalDegree_pullback_le P).trans hP), mean, samples,
    List.map_map]
  refine congrArg List.sum (List.map_congr_left fun node _ => ?_)
  rw [Function.comp_apply, s.eval_pullback]

/-- For functions of `dim` components, all polynomials up to the degree of the rule, integration
adds to each entry the mean of its component times the measure, and changes no other entry. -/
def IntegratesPolynomials (rule : SimplexRule ℝ n) (dim : Nat) : Prop :=
  ∀ (s : Simplex ℝ n) (t : ℝ) (f : SpaceTimeFunction ℝ) (P : Fin f.dim → MvPolynomial (Fin 3) ℝ),
    f.dim = dim → (∀ i, (P i).totalDegree ≤ rule.degree) →
    (∀ (x : Vec3 ℝ) (i : Fin f.dim), (f.value t x).get i = eval x.component (P i)) →
    ∀ buf : Buffer ℝ, ∃ out, rule.integrate t s f buf = .ok out ∧ out.length = buf.length ∧
      (∀ (i : Fin f.dim) (old : ℝ), buf[i.val]? = some old →
        out[i.val]? = some (old + s.measure * s.mean (P i))) ∧
      ∀ j, f.dim ≤ j → out[j]? = buf[j]?

/-- **Exact rules integrate polynomials up to their degree.** -/
theorem IsExact.integratesPolynomials (h : rule.IsExact) {dim : Nat}
    (hdim : dim = 1 ∨ dim = 3 ∨ dim = 9) : rule.IntegratesPolynomials dim := by
  rintro s t f P rfl hdegree hvalue buf
  have hout : rule.addIntegral t f buf s = buf.mapIdx fun j old => old +
      s.measure * rule.mean s.corners fun x => (f.components t x).getD j 0 := by
    rw [addIntegral, foldl_addScaled]
    simp only [mean, ← List.sum_map_mul_left, mul_assoc]
  refine ⟨_, integrate_eq_ok (requireDim_eq_ok hdim) s buf, length_addIntegral buf s,
    fun i old hold => ?_, fun j hj => ?_⟩
  · have hcomponent : ∀ x, (f.components t x).getD i 0 = eval x.component (P i) := fun x => by
      rw [← hvalue]
      simp [SpaceTimeFunction.components, Vector.get]
    rw [hout, List.getElem?_mapIdx, hold]
    simp only [hcomponent, h.mean_eq s (hdegree i), Option.map_some]
  · have hcomponent : ∀ x, (f.components t x).getD j 0 = 0 := fun x =>
      List.getD_eq_default _ _ (by rwa [f.length_components])
    have hzero : rule.mean s.corners (fun x => (f.components t x).getD j 0) = 0 := by
      simp only [hcomponent, mean, mul_zero]
      simp
    rw [hout, List.getElem?_mapIdx, hzero, mul_zero]
    simp

/-- **The degrees of the rules are certified.**  For functions of one, three or nine components the
rules of every level are there, and integrate polynomials up to their degree exactly, over every
triangle and tetrahedron in space. -/
theorem certified_degrees (level : Level) {dim : Nat} (hdim : dim = 1 ∨ dim = 3 ∨ dim = 9) :
    (∃ rule : SimplexRule ℝ 3, triangleFor level dim = .ok rule ∧
      rule.IntegratesPolynomials dim) ∧
      ∃ rule : SimplexRule ℝ 4, tetraFor level dim = .ok rule ∧
        rule.IntegratesPolynomials dim :=
  ⟨⟨_, triangleFor_eq_ok level hdim, (isExact_triangle level).integratesPolynomials hdim⟩,
    ⟨_, tetraFor_eq_ok level hdim, (isExact_tetra level).integratesPolynomials hdim⟩⟩

/-- A monomial of degree three over the unit tetrahedron, added to the first of two entries. -/
theorem certified_degrees_unitTetra :
    ∃ rule : SimplexRule ℝ 4, tetraFor .highest 1 = .ok rule ∧
      rule.integrate 5 (.tetra 0 ⟨1, 0, 0⟩ ⟨0, 1, 0⟩ ⟨0, 0, 1⟩ (1 / 6))
        ⟨1, fun _ x => #v[x.x * x.x * x.y]⟩ [2, 3] = .ok [2 + 1 / 360, 3] := by
  obtain ⟨-, rule, hrule, hintegrates⟩ := certified_degrees .highest (.inl (rfl : 1 = 1))
  refine ⟨rule, hrule, ?_⟩
  obtain rfl := Except.ok.inj ((tetraFor_eq_ok .highest (.inl rfl)).symm.trans hrule)
  set s : Simplex ℝ 4 := .tetra 0 ⟨1, 0, 0⟩ ⟨0, 1, 0⟩ ⟨0, 0, 1⟩ (1 / 6) with hs
  have hcoordinates : s.coordinate 0 = X 1 ∧ s.coordinate 1 = X 2 := by
    constructor <;>
      simp [hs, Simplex.coordinate, Simplex.tetra, Fin.sum_univ_four, Vec3.component,
        Vector.get]
  have hpullback : s.pullback (X 0 * X 0 * X 1) =
      monomial (.single 1 1 + .single 1 1 + .single 2 1) 1 := by
    rw [Simplex.pullback, map_mul, map_mul, bind₁_X_right, bind₁_X_right, hcoordinates.1,
      hcoordinates.2, X, X, monomial_mul, monomial_mul, one_mul, one_mul]
  have hmean : s.mean (X 0 * X 0 * X 1) = 1 / 60 := by
    rw [Simplex.mean, hpullback, barycentricMean_monomial, monomialMean_four]
    simp
    norm_num [Nat.factorial]
  have hdegree : (X 0 * X 0 * X 1 : MvPolynomial (Fin 3) ℝ).totalDegree ≤ 3 := by
    refine (totalDegree_mul _ _).trans (Nat.add_le_add (totalDegree_mul _ _) le_rfl) |>.trans ?_
    simp only [totalDegree_X]
    rfl
  obtain ⟨out, hout, hlength, hentries, hkeep⟩ := hintegrates s 5
    ⟨1, fun _ x => #v[x.x * x.x * x.y]⟩ (fun _ => X 0 * X 0 * X 1) rfl
    (fun _ => hdegree) (fun x i => by
      fin_cases i
      simp [Vec3.component, Vector.get]) [2, 3]
  obtain ⟨first, second, rfl⟩ := List.length_eq_two.1 hlength
  have hmeasure : s.measure = 1 / 6 := rfl
  have hfirst : first = 2 + 1 / 6 * (1 / 60) := by
    simpa [hmean, hmeasure] using hentries 0 2 rfl
  have hsecond : second = 3 := by simpa using hkeep 1 le_rfl
  rw [hout, hfirst, hsecond]
  norm_num

end SimplexRule

end Polyfield
