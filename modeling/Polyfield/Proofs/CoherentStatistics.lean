import Polyfield.Proofs.BlockedSums
import Polyfield.Statistics

/-!
# Coherence of the statistics of an array

The statistics of an array are those of one number for each entity: its value, or its length if it
has several components.  Over the real numbers their parts hang together: the range is attained
and holds the mean, the deviation is no larger than the range is wide, and the Euclidean norm is
that of all values, however they are grouped into entities.

* `Statistics.analysed_eq_map` : the analysed numbers, one for each entity;
* `Statistics.range_bounds` : the two ends of the range;
* `Statistics.ofList_eq_ok` : the three sums behind the other parts;
* `Statistics.IsCoherent` : how the parts hang together;
* `Statistics.sum_squares_analysed` : the squares of the analysed numbers make those of the values;
* `Statistics.coherent_statistics` : the statistics of every array, and of two groupings of it.
-/

namespace Polyfield

namespace Statistics

variable {values xs : List ℝ} {stride n : Nat}

/-! ## The analysed numbers -/

/-- The number that stands for an entity: its value if it has one component, and otherwise its
length. -/
noncomputable def entityValue (values : List ℝ) (stride i : Nat) : ℝ :=
  if stride = 1 then values.getD i 0
  else √(∑ k ∈ Finset.range stride, values.getD (stride * i + k) 0 ^ 2)

theorem sum_map_range (f : Nat → ℝ) (n : Nat) :
    ((List.range n).map f).sum = ∑ i ∈ Finset.range n, f i := rfl

/-- A part of a list by its entries. -/
theorem take_drop_eq_map_getD {start len : Nat} (h : start + len ≤ values.length) :
    (values.drop start).take len = (List.range len).map fun k => values.getD (start + k) 0 := by
  refine List.ext_getElem (by simp; omega) fun k hk _ => ?_
  have hlt : start + k < values.length := by
    rw [List.length_take] at hk
    omega
  simp [hlt]

theorem entityNorm_eq (components : List ℝ) :
    entityNorm components = √((components.map fun v => v * v).sum) := by
  rw [entityNorm, total_eq_sum, Scalar.sqrt_real]

/-- The square of the length of an entity is the sum of the squares of its components. -/
theorem sq_entityNorm (components : List ℝ) :
    entityNorm components * entityNorm components = (components.map fun v => v * v).sum := by
  rw [entityNorm_eq]
  refine Real.mul_self_sqrt (List.sum_nonneg fun x hx => ?_)
  obtain ⟨v, -, rfl⟩ := List.mem_map.1 hx
  exact mul_self_nonneg v

/-- **The analysed numbers are those of the entities.** -/
theorem analysed_eq_map (hstride : 0 < stride) (h : values.length = stride * n) :
    analysed values stride = (List.range n).map (entityValue values stride) := by
  unfold analysed entityValue
  by_cases hone : stride = 1
  · subst hone
    have hall : (values.drop 0).take n = (List.range n).map fun k => values.getD (0 + k) 0 :=
      take_drop_eq_map_getD (by omega)
    rw [List.drop_zero, List.take_of_length_le (by omega)] at hall
    simpa using hall
  · have hcount : values.length / stride = n := by rw [h, Nat.mul_div_cancel_left n hstride]
    simp only [if_neg hone, hcount]
    refine List.ext_getElem? fun i => ?_
    rcases Nat.lt_or_ge i n with hi | hi
    · have hroom : stride * i + stride ≤ values.length := by
        rw [h, ← Nat.mul_succ]
        exact Nat.mul_le_mul_left stride hi
      rw [List.getElem?_map, List.getElem?_map, getElem?_blocks hi, List.getElem?_range hi]
      simp only [Option.map_some, entityNorm_eq, take_drop_eq_map_getD hroom, List.map_map,
        Function.comp_def, sum_map_range, sq]
    · rw [List.getElem?_eq_none (by simpa using hi), List.getElem?_eq_none (by simpa using hi)]

/-- **The squares of the analysed numbers make those of the values**, whatever the entities are. -/
theorem sum_squares_analysed (h : stride ∣ values.length) :
    ((analysed values stride).map fun v => v * v).sum = (values.map fun v => v * v).sum := by
  unfold analysed
  split
  · rfl
  · have hblocks : (blocks stride (values.length / stride) values).flatten = values :=
      flatten_blocks (Nat.mul_div_cancel' h).ge
    calc (((blocks stride (values.length / stride) values).map entityNorm).map
          fun v => v * v).sum
        = ((blocks stride (values.length / stride) values).map fun b =>
            (b.map fun v => v * v).sum).sum := by
          simp only [List.map_map, Function.comp_def, sq_entityNorm]
      _ = (((blocks stride (values.length / stride) values).map
            (List.map fun v => v * v)).flatten).sum := by
          rw [List.sum_flatten, List.map_map]
          rfl
      _ = (values.map fun v => v * v).sum := by rw [← List.map_flatten, hblocks]

/-! ## The range -/

/-- What is left of a range when one more number has been seen. -/
noncomputable def widen (ends : ℝ × ℝ) (v : ℝ) : ℝ × ℝ :=
  (if v < ends.1 then v else ends.1, if ends.2 < v then v else ends.2)

/-- The ends of a range are the least and the greatest of the numbers that have been seen. -/
def HoldsRange (seen : Set ℝ) (ends : ℝ × ℝ) : Prop :=
  IsLeast seen ends.1 ∧ IsGreatest seen ends.2

theorem HoldsRange.widen {seen : Set ℝ} {ends : ℝ × ℝ} (h : HoldsRange seen ends) (v : ℝ) :
    HoldsRange (insert v seen) (widen ends v) := by
  obtain ⟨hleast, hgreatest⟩ := h
  constructor
  · rw [Statistics.widen, ← min_def_lt]
    exact hleast.insert v
  · rw [Statistics.widen, ← max_def_lt, max_comm]
    exact hgreatest.insert v

theorem HoldsRange.foldl {seen : Set ℝ} {ends : ℝ × ℝ} (h : HoldsRange seen ends)
    (rest : List ℝ) : HoldsRange (seen ∪ {a | a ∈ rest}) (rest.foldl Statistics.widen ends) := by
  induction rest generalizing seen ends with
  | nil => simpa using h
  | cons v rest ih =>
    have hseen : seen ∪ {a | a ∈ v :: rest} = insert v seen ∪ {a | a ∈ rest} := by
      ext a
      simp only [Set.mem_union, Set.mem_ofPred_eq, List.mem_cons, Set.mem_insert_iff]
      tauto
    rw [List.foldl_cons, hseen]
    exact ih (h.widen v)

/-- **The ends of the range** are the least and the greatest of the numbers. -/
theorem holdsRange_range (hxs : xs ≠ []) : HoldsRange {a | a ∈ xs} (range xs) := by
  have hall : xs.filter (fun x => x ≤ x) = xs := by simp
  unfold range
  rw [hall]
  cases xs with
  | nil => exact absurd rfl hxs
  | cons x rest =>
    have hfirst : HoldsRange {x} (x, x) := ⟨isLeast_singleton, isGreatest_singleton⟩
    have hseen : {a | a ∈ x :: rest} = {x} ∪ {a | a ∈ rest} := by
      ext a
      simp
    rw [hseen]
    exact hfirst.foldl rest

/-! ## The three sums -/

/-- A sum without weights, whatever the summation has summed before. -/
theorem exists_sum_unweighted {s : BlockSum ℝ} (hsize : 0 < s.blockSize) (kind : SumKind)
    (hkind : kind.isWeighted = false) (xs : List ℝ) : ∃ s' : BlockSum ℝ,
      s.sum kind xs none = .ok ((xs.map kind.term).sum, s') ∧ 0 < s'.blockSize := by
  have hgiven : (SumCall.mk kind xs none).IsGiven := by
    intro hweighted
    rw [hkind] at hweighted
    cases hweighted
  obtain ⟨s', hsum, hgrown⟩ := s.exists_sum hsize hgiven
  have hvalue : (SumCall.mk kind xs none).value = (xs.map kind.term).sum := by
    simp [SumCall.value, SumCall.weight, hkind, ← Fin.sum_univ_fun_getElem]
  rw [hvalue] at hsum
  exact ⟨s', hsum, hgrown ▸ hsize.trans_le (Nat.le_max_left _ _)⟩

/-- **The statistics of some numbers** by their range and three sums. -/
theorem ofList_eq_ok (xs : List ℝ) :
    let mean := xs.sum / xs.length
    ofList xs = .ok ⟨(range xs).1, (range xs).2, mean,
      √((xs.map fun v => (v - mean) * (v - mean)).sum / xs.length),
      √(xs.map fun v => v * v).sum⟩ := by
  intro mean
  obtain ⟨s₁, hsum, hs₁⟩ := exists_sum_unweighted (s := .forSize xs.length)
    (BlockSum.blockSizeFor_pos _) .sum rfl xs
  obtain ⟨s₂, hsquares, hs₂⟩ := exists_sum_unweighted hs₁ .sumSquares rfl xs
  obtain ⟨s₃, hdeviations, -⟩ := exists_sum_unweighted hs₂ .sumSquares rfl
    (xs.map fun v => v - mean)
  have hterms : xs.map SumKind.sum.term = xs := List.map_id' _
  rw [hterms] at hsum
  refine (bind_of_ok hsum _).trans ((bind_of_ok hsquares _).trans
    ((bind_of_ok hdeviations _).trans ?_))
  rw [List.map_map]
  rfl

/-! ## Coherence -/

/-- The parts of the statistics of `n` numbers hang together. -/
structure IsCoherent (s : Statistics ℝ) (n : Nat) (a : Nat → ℝ) : Prop where
  isLeast_min : IsLeast (a '' Set.Iio n) s.min
  isGreatest_max : IsGreatest (a '' Set.Iio n) s.max
  mean_eq : s.mean = (∑ i ∈ Finset.range n, a i) / n
  mean_mem : s.mean ∈ Set.Icc s.min s.max
  sigma_mem : s.sigma ∈ Set.Icc 0 (s.max - s.min)
  sq_euclideanNorm : s.euclideanNorm ^ 2 = n * (s.mean ^ 2 + s.sigma ^ 2)

/-- The mean of some numbers lies between any two bounds of theirs. -/
theorem mean_mem_Icc (hn : 0 < n) {a : Nat → ℝ} {lo hi : ℝ}
    (h : ∀ i < n, a i ∈ Set.Icc lo hi) : (∑ i ∈ Finset.range n, a i) / n ∈ Set.Icc lo hi := by
  have hpos : (0 : ℝ) < n := Nat.cast_pos.2 hn
  constructor
  · rw [le_div_iff₀ hpos, mul_comm, ← nsmul_eq_mul]
    simpa using Finset.card_nsmul_le_sum (Finset.range n) a lo
      fun i hi => (h i (Finset.mem_range.1 hi)).1
  · rw [div_le_iff₀ hpos, mul_comm, ← nsmul_eq_mul]
    simpa using Finset.sum_le_card_nsmul (Finset.range n) a hi
      fun i hi => (h i (Finset.mem_range.1 hi)).2

/-- The squares of the deviations from the mean, from the squares of the numbers. -/
theorem sum_sq_deviations (hn : 0 < n) (a : Nat → ℝ) {mean : ℝ}
    (hmean : mean = (∑ i ∈ Finset.range n, a i) / n) :
    ∑ i ∈ Finset.range n, (a i - mean) * (a i - mean) =
      (∑ i ∈ Finset.range n, a i * a i) - n * mean ^ 2 := by
  have hne : (n : ℝ) ≠ 0 := Nat.cast_ne_zero.2 hn.ne'
  have hsum : ∑ i ∈ Finset.range n, a i = n * mean := by rw [hmean, mul_div_cancel₀ _ hne]
  calc ∑ i ∈ Finset.range n, (a i - mean) * (a i - mean)
      = ∑ i ∈ Finset.range n, (a i * a i - 2 * mean * a i + mean ^ 2) :=
        Finset.sum_congr rfl fun i _ => by ring
    _ = (∑ i ∈ Finset.range n, a i * a i) - 2 * mean * (n * mean) + n * mean ^ 2 := by
        rw [Finset.sum_add_distrib, Finset.sum_sub_distrib, ← Finset.mul_sum, hsum,
          Finset.sum_const, Finset.card_range, nsmul_eq_mul]
    _ = (∑ i ∈ Finset.range n, a i * a i) - n * mean ^ 2 := by ring

/-- The deviation is no larger than the range is wide. -/
theorem sqrt_deviations_le (hn : 0 < n) {a : Nat → ℝ} {lo hi mean : ℝ}
    (h : ∀ i < n, a i ∈ Set.Icc lo hi) (hmean : mean ∈ Set.Icc lo hi) :
    √((∑ i ∈ Finset.range n, (a i - mean) * (a i - mean)) / n) ≤ hi - lo := by
  have hsquares : ∀ i < n, (a i - mean) * (a i - mean) ∈ Set.Icc 0 ((hi - lo) ^ 2) := by
    intro i hi'
    obtain ⟨hlo, hhi⟩ := h i hi'
    obtain ⟨hmlo, hmhi⟩ := hmean
    refine ⟨mul_self_nonneg _, ?_⟩
    rw [← sq]
    exact sq_le_sq' (by linarith) (by linarith)
  exact Real.sqrt_le_iff.2
    ⟨sub_nonneg.2 (hmean.1.trans hmean.2), (mean_mem_Icc hn hsquares).2⟩

/-- **The statistics of some numbers are coherent.** -/
theorem exists_isCoherent (hn : 0 < n) (a : Nat → ℝ) :
    ∃ s, ofList ((List.range n).map a) = .ok s ∧ s.IsCoherent n a ∧
      s.euclideanNorm = √(∑ i ∈ Finset.range n, a i * a i) := by
  have hxs : (List.range n).map a ≠ [] := by simpa using hn.ne'
  have hmem : {x | x ∈ (List.range n).map a} = a '' Set.Iio n := by
    ext x
    simp
  have hpos : (0 : ℝ) < n := Nat.cast_pos.2 hn
  obtain ⟨hleast, hgreatest⟩ := holdsRange_range hxs
  rw [hmem] at hleast hgreatest
  have hbounds : ∀ i < n, a i ∈ Set.Icc (range ((List.range n).map a)).1
      (range ((List.range n).map a)).2 := fun i hi =>
    ⟨hleast.2 (Set.mem_image_of_mem a hi), hgreatest.2 (Set.mem_image_of_mem a hi)⟩
  refine ⟨_, ofList_eq_ok _, ?_, ?_⟩
  · simp only [List.length_map, List.length_range, List.map_map, Function.comp_def, sum_map_range]
    set mean := (∑ i ∈ Finset.range n, a i) / n with hmean
    have hin : mean ∈ Set.Icc _ _ := mean_mem_Icc hn hbounds
    refine ⟨hleast, hgreatest, rfl, hin, ⟨Real.sqrt_nonneg _, ?_⟩, ?_⟩
    · exact sqrt_deviations_le hn hbounds hin
    · have hsquares : 0 ≤ ∑ i ∈ Finset.range n, a i * a i :=
        Finset.sum_nonneg fun i _ => mul_self_nonneg _
      have hdeviations : 0 ≤ ∑ i ∈ Finset.range n, (a i - mean) * (a i - mean) :=
        Finset.sum_nonneg fun i _ => mul_self_nonneg _
      show √_ ^ 2 = n * (mean ^ 2 + √_ ^ 2)
      rw [Real.sq_sqrt hsquares, Real.sq_sqrt (div_nonneg hdeviations hpos.le), mul_add,
        mul_div_cancel₀ _ hpos.ne', sum_sq_deviations hn a hmean, add_sub_cancel]
  · simp [Function.comp_def, sum_map_range]

/-- An array of some entities has the statistics of its analysed numbers. -/
theorem analyse_eq_ofList (hstride : 0 < stride) (hn : 0 < n)
    (h : values.length = stride * n) :
    analyse values stride = ofList ((List.range n).map (entityValue values stride)) := by
  have hrest : values.length % stride = 0 := by rw [h, Nat.mul_mod_right]
  obtain ⟨n, rfl⟩ := Nat.exists_eq_succ_of_ne_zero hn.ne'
  rw [analyse, if_neg hstride.ne', if_neg (not_not.2 hrest), analysed_eq_map hstride h,
    List.range_succ_eq_map]
  rfl

/-- **Statistics are coherent.**  Every array that is not empty and whose length is a multiple of
the number of components has statistics, whose parts hang together.  The Euclidean norm is that of
all values, so that it is the same for any two numbers of components. -/
theorem coherent_statistics (hvalues : values ≠ []) (hstride : 0 < stride)
    (h : stride ∣ values.length) :
    ∃ s, analyse values stride = .ok s ∧
      s.IsCoherent (values.length / stride) (entityValue values stride) ∧
      s.euclideanNorm = √(values.map fun v => v ^ 2).sum ∧
      ∀ stride', 0 < stride' → stride' ∣ values.length → ∃ s',
        analyse values stride' = .ok s' ∧ s'.euclideanNorm = s.euclideanNorm := by
  have hall : ∀ stride, 0 < stride → stride ∣ values.length → ∃ s,
      analyse values stride = .ok s ∧
        s.IsCoherent (values.length / stride) (entityValue values stride) ∧
        s.euclideanNorm = √(values.map fun v => v ^ 2).sum := by
    intro stride hstride h
    have hlength : values.length = stride * (values.length / stride) :=
      (Nat.mul_div_cancel' h).symm
    have hn : 0 < values.length / stride :=
      Nat.div_pos (Nat.le_of_dvd (List.length_pos_iff.2 hvalues) h) hstride
    have hsquares := sum_squares_analysed h
    rw [analysed_eq_map hstride hlength, List.map_map, sum_map_range] at hsquares
    obtain ⟨s, hs, hcoherent, hnorm⟩ := exists_isCoherent hn (entityValue values stride)
    refine ⟨s, (analyse_eq_ofList hstride hn hlength).trans hs, hcoherent, ?_⟩
    simp only [sq]
    rw [← hsquares]
    exact hnorm
  obtain ⟨s, hs, hcoherent, hnorm⟩ := hall stride hstride h
  refine ⟨s, hs, hcoherent, hnorm, fun stride' hstride' h' => ?_⟩
  obtain ⟨s', hs', -, hnorm'⟩ := hall stride' hstride' h'
  exact ⟨s', hs', hnorm'.trans hnorm.symm⟩

/-- Three vectors of lengths 5, 1 and 3, and their nine components. -/
theorem coherent_statistics_vectors :
    let values : List ℝ := [3, 4, 0, 0, 0, -1, 0, 3, 0]
    ∃ s s', analyse values 3 = .ok s ∧ s.min = 1 ∧ s.max = 5 ∧ s.mean = 3 ∧
      s.euclideanNorm = √35 ∧ analyse values 1 = .ok s' ∧ s'.euclideanNorm = √35 := by
  intro values
  obtain ⟨s, hs, hcoherent, hnorm, hothers⟩ := coherent_statistics
    (show values ≠ [] from List.cons_ne_nil _ _) (show 0 < 3 by decide) ⟨3, rfl⟩
  obtain ⟨s', hs', hnorm'⟩ := hothers 1 Nat.one_pos (one_dvd _)
  have hfirst : entityValue values 3 0 = 5 := by
    have hsqrt : √((5 : ℝ) ^ 2) = 5 := Real.sqrt_sq (by norm_num)
    rw [← hsqrt]
    norm_num [entityValue, Finset.sum_range_succ, values]
  have hsecond : entityValue values 3 1 = 1 := by
    norm_num [entityValue, Finset.sum_range_succ, values]
  have hthird : entityValue values 3 2 = 3 := by
    have hsqrt : √((3 : ℝ) ^ 2) = 3 := Real.sqrt_sq (by norm_num)
    rw [← hsqrt]
    norm_num [entityValue, Finset.sum_range_succ, values]
  have hnumbers : entityValue values 3 '' Set.Iio 3 = {5, 1, 3} := by
    have hthree : Set.Iio 3 = ({0, 1, 2} : Set Nat) := by
      ext i
      simp
      omega
    rw [hthree, Set.image_insert_eq, Set.image_pair, hfirst, hsecond, hthird]
  have hall : (values.map fun v => v ^ 2).sum = 35 := by norm_num [values]
  rw [hall] at hnorm
  have hmin := hcoherent.isLeast_min
  have hmax := hcoherent.isGreatest_max
  have hmean := hcoherent.mean_eq
  have hcount : values.length / 3 = 3 := by simp [values]
  rw [hcount] at hmin hmax hmean
  rw [hnumbers] at hmin hmax
  refine ⟨s, s', hs, hmin.unique ⟨by simp, ?_⟩, hmax.unique ⟨by simp, ?_⟩, ?_, hnorm, hs',
    hnorm'.trans hnorm⟩
  · rintro _ (rfl | rfl | rfl) <;> norm_num
  · rintro _ (rfl | rfl | rfl) <;> norm_num
  · rw [hmean, Finset.sum_range_succ, Finset.sum_range_succ, Finset.sum_range_one, hfirst, hsecond,
      hthird]
    norm_num

end Statistics

end Polyfield
