import Mathlib.Algebra.BigOperators.Fin
import Mathlib.Order.Bounds.Basic
import Polyfield.BlockSum
import Polyfield.Proofs.Batches
import Polyfield.Proofs.ExactArithmetic

/-!
# Sums in blocks

A blocked summation counts every term once, whatever the size of its blocks and whatever it has
summed before.  The only thing that it remembers is the size, which is the largest that any list so
far has asked for.

* `flatten_chunks`, `total_map_total_chunks` : the blocks of a list make the list, so that the sums
  of the blocks add up to its sum;
* `BlockSum.blockTotal_eq_ok`, `BlockSum.fillScratch_eq_ok` : the weights of a block are those of
  its values, and the sums of the blocks are all that is kept;
* `BlockSum.blockSizeFor_le_iff` : a size is large enough for a list if its square is no less than
  the length;
* `BlockSum.exists_sum`, `BlockSum.exists_runAll` : what one sum does to a summation, and what a
  sequence of sums does;
* `BlockSum.blocked_sums` : the same for a summation from its beginning on.
-/

namespace Polyfield

variable {α R : Type}

/-! ## Lists in blocks -/

theorem flatten_blocks {size count : Nat} {xs : List α} (h : xs.length ≤ size * count) :
    (blocks size count xs).flatten = xs := by
  induction count generalizing xs with
  | zero =>
    obtain rfl := List.length_eq_zero_iff.1 (Nat.le_zero.1 h)
    rfl
  | succ count ih =>
    have hrest : (xs.drop size).length ≤ size * count := by
      rw [Nat.mul_succ] at h
      rw [List.length_drop]
      omega
    rw [blocks, List.flatten_cons, ih hrest, List.take_append_drop]

/-- **The blocks of a list make the list**, with a shorter one at the end if need be. -/
theorem flatten_chunks {size : Nat} (hsize : 0 < size) (xs : List α) :
    (chunks size xs).flatten = xs :=
  flatten_blocks ((batchCount_le_iff hsize).1 (Nat.le_refl _))

/-- The sums of the blocks of a list add up to its sum. -/
theorem total_map_total_chunks {size : Nat} (hsize : 0 < size) (xs : List ℝ) :
    total ((chunks size xs).map total) = xs.sum := by
  have htotal : (total : List ℝ → ℝ) = List.sum := funext total_eq_sum
  rw [htotal, ← List.sum_flatten, flatten_chunks hsize]

theorem chunks_eq_map_range (size : Nat) (xs : List α) :
    chunks size xs = (List.range ((xs.length + size - 1) / size)).map fun b =>
      (xs.drop (size * b)).take size := by
  refine List.ext_getElem (by simp [chunks]) fun b hb _ => ?_
  have hlt : b < (xs.length + size - 1) / size := by simpa [chunks] using hb
  have hblock : (chunks size xs)[b]? = some ((xs.drop (size * b)).take size) :=
    getElem?_blocks hlt
  rw [List.getElem?_eq_getElem hb] at hblock
  rw [Option.some.inj hblock, List.getElem_map, List.getElem_range]

/-- A block of pairs can be cut out of either list. -/
theorem zipWith_take_left {β γ : Type} (f : α → β → γ) (n : Nat) (xs : List α) (ys : List β) :
    List.zipWith f (xs.take n) ys = (List.zipWith f xs ys).take n := by
  induction n generalizing xs ys with
  | zero => simp
  | succ n ih => cases xs <;> cases ys <;> simp [ih]

/-! ## One sum -/

variable [Scalar R]

/-- The terms of a sum, each with its weight if there are weights. -/
def SumKind.terms (kind : SumKind) (values : List R) : Option (List R) → List R
  | none => values.map kind.term
  | some ws => List.zipWith (fun v w => w * kind.term v) values ws

/-- Weights that are there are as many as the values. -/
def SameCount (values : List R) (weights : Option (List R)) : Prop :=
  ∀ ws ∈ weights, ws.length = values.length

theorem SumKind.length_terms (kind : SumKind) {values : List R} {weights : Option (List R)}
    (h : SameCount values weights) : (kind.terms values weights).length = values.length := by
  cases weights with
  | none => exact List.length_map _
  | some ws => rw [terms, List.length_zipWith, h ws rfl, Nat.min_self]

namespace BlockSum

variable {kind : SumKind} {values : List R} {weights : Option (List R)}

/-- **The weights of a block are those of its values.** -/
theorem blockTotal_eq_ok (h : SameCount values weights) {size b : Nat} {block : List R}
    (hblock : (chunks size values)[b]? = some block) (hsize : 0 < size) :
    blockTotal kind weights (b * size) block =
      .ok (total (((kind.terms values weights).drop (size * b)).take size)) := by
  have hroom := add_length_chunk_le hsize hblock
  obtain ⟨-, rfl⟩ := eq_of_chunk hblock
  cases weights with
  | none => rw [blockTotal, SumKind.terms, List.map_take, List.map_drop]
  | some ws =>
    have hlength := h ws rfl
    have hweights : slice ws (b * size) ws.length = .ok (ws.drop (size * b)) := by
      rw [slice, if_pos ⟨by rw [Nat.mul_comm]; omega, Nat.le_refl _⟩, Nat.mul_comm,
        List.take_of_length_le (by rw [List.length_drop])]
    rw [blockTotal, hweights, ok_bind, SumKind.terms, List.drop_zipWith, ← zipWith_take_left]
    rfl

/-- **Each block leaves one sum**, and nothing else is kept. -/
theorem fillScratch_eq_ok (s : BlockSum R) (hsize : 0 < s.blockSize)
    (h : SameCount values weights) :
    s.fillScratch kind values weights = .ok { s with
      scratch := (chunks s.blockSize (kind.terms values weights)).map total } := by
  set ts := kind.terms values weights with hts
  let cut (p : List R × Nat) : R := total ((ts.drop (s.blockSize * p.2)).take s.blockSize)
  have hstep : ∀ done, ∀ p ∈ (chunks s.blockSize values).zipIdx,
      addBlock kind weights { s with scratch := done.map cut } p =
        .ok { s with scratch := (done ++ [p]).map cut } := by
    rintro done ⟨block, b⟩ hp
    rw [addBlock, blockTotal_eq_ok h (List.mk_mem_zipIdx_iff_getElem?.1 hp) hsize, ok_bind,
      List.map_append]
    rfl
  have hcount : (chunks s.blockSize values).length =
      (ts.length + s.blockSize - 1) / s.blockSize := by
    rw [chunks, length_blocks, hts, kind.length_terms h]
  have hsums : (chunks s.blockSize values).zipIdx.map cut = (chunks s.blockSize ts).map total := by
    rw [chunks_eq_map_range s.blockSize ts, List.map_map, ← hcount, List.range_eq_range',
      ← List.zipIdx_map_snd, List.map_map]
    rfl
  rw [← hsums]
  exact foldlM_eq_ok_of_done (fun done => { s with scratch := done.map cut }) hstep []

end BlockSum

/-! ## The block size -/

namespace BlockSum

theorem blockSizeFor_real (n : Nat) : blockSizeFor ℝ n = max 1 ⌈√(n : ℝ)⌉₊ := rfl

/-- **A size is large enough for a list** if its square is no less than the length. -/
theorem blockSizeFor_le_iff {n size : Nat} (hsize : 0 < size) :
    blockSizeFor ℝ n ≤ size ↔ n ≤ size * size := by
  have hceil : ⌈√(n : ℝ)⌉₊ ≤ size ↔ n ≤ size * size := by
    rw [Nat.ceil_le, Real.sqrt_le_left (Nat.cast_nonneg size), sq]
    exact_mod_cast Iff.rfl
  rw [blockSizeFor_real, max_le_iff, hceil]
  exact and_iff_right hsize

theorem blockSizeFor_pos (n : Nat) : 0 < blockSizeFor ℝ n :=
  Nat.lt_of_lt_of_le Nat.one_pos (Nat.le_max_left _ _)

/-- A summation grows to the size that a list asks for, and does not shrink. -/
theorem blockSize_grow (s : BlockSum ℝ) (hsize : 0 < s.blockSize) (n : Nat) :
    (s.grow n).blockSize = max s.blockSize (blockSizeFor ℝ n) := by
  have hiff := blockSizeFor_le_iff (n := n) hsize
  unfold grow
  split
  · have hlt : s.blockSize < blockSizeFor ℝ n := by omega
    exact (Nat.max_eq_right hlt.le).symm
  · exact (Nat.max_eq_left (hiff.2 (by omega))).symm

end BlockSum

/-! ## Sequences of sums -/

/-- A request for a sum. -/
structure SumCall (R : Type) where
  kind : SumKind
  values : List R
  weights : Option (List R)

namespace SumCall

/-- A weighted sum comes with as many weights as values. -/
def IsGiven (call : SumCall R) : Prop :=
  call.kind.isWeighted = true → ∃ ws, call.weights = some ws ∧ ws.length = call.values.length

/-- The weight of a value, or one if the sum is not weighted. -/
noncomputable def weight (call : SumCall ℝ) (i : Nat) : ℝ :=
  if call.kind.isWeighted then (call.weights.getD []).getD i 0 else 1

/-- The sum over all values of the weight times the term. -/
noncomputable def value (call : SumCall ℝ) : ℝ :=
  ∑ i : Fin call.values.length, call.weight i * call.kind.term call.values[i]

/-- The block size that a list asks for. -/
noncomputable def size (call : SumCall ℝ) : Nat := BlockSum.blockSizeFor ℝ call.values.length

/-- The weights that are used, and that the terms with them add up to the value. -/
theorem exists_usedWeights {call : SumCall ℝ} (h : call.IsGiven) :
    ∃ weights, BlockSum.usedWeights call.kind call.values.length call.weights = .ok weights ∧
      SameCount call.values weights ∧ (call.kind.terms call.values weights).sum = call.value := by
  unfold BlockSum.usedWeights value weight
  by_cases hweighted : call.kind.isWeighted = true
  · obtain ⟨ws, hws, hlength⟩ := h hweighted
    refine ⟨some ws, ?_, ?_, ?_⟩
    · rw [if_pos hweighted, hws]
      exact if_pos hlength
    · rintro _ ⟨⟩
      exact hlength
    · have hterms : call.kind.terms call.values (some ws) = List.ofFn
          fun i : Fin call.values.length => ws.getD i 0 * call.kind.term call.values[i] := by
        refine List.ext_getElem (by simp [SumKind.terms, hlength]) fun i hi _ => ?_
        have hlt : i < ws.length := by
          simp only [SumKind.terms, List.length_zipWith] at hi
          omega
        simp [SumKind.terms, hlt]
      simp [hterms, List.sum_ofFn, hweighted, hws]
  · refine ⟨none, if_neg hweighted, nofun, ?_⟩
    simp [SumKind.terms, hweighted, ← Fin.sum_univ_fun_getElem]

end SumCall

namespace BlockSum

/-- **One sum**: the answer is the value, whatever is kept from before, and the size is at least
what the list asks for. -/
theorem exists_sum (s : BlockSum ℝ) (hsize : 0 < s.blockSize) {call : SumCall ℝ}
    (h : call.IsGiven) : ∃ s' : BlockSum ℝ,
      s.sum call.kind call.values call.weights = .ok (call.value, s') ∧
        s'.blockSize = max s.blockSize call.size := by
  obtain ⟨weights, hweights, hcount, hvalue⟩ := SumCall.exists_usedWeights h
  have hgrow := s.blockSize_grow hsize call.values.length
  have hpos : 0 < (s.grow call.values.length).blockSize := by
    rw [hgrow]
    exact Nat.lt_of_lt_of_le hsize (Nat.le_max_left _ _)
  set size := (s.grow call.values.length).blockSize
  have hall : total ((chunks size ((chunks size (call.kind.terms call.values weights)).map
      total)).map total) = call.value := by
    rw [total_map_total_chunks hpos, ← total_eq_sum, total_map_total_chunks hpos, hvalue]
  refine ⟨⟨size, (chunks size (call.kind.terms call.values weights)).map total⟩, ?_, hgrow⟩
  rw [sum, hweights, ok_bind, fillScratch_eq_ok _ hpos hcount, ok_bind, pure_eq_ok, hall]

/-- Answer some requests, one after the other, with the same summation. -/
def runAll (s : BlockSum R) : List (SumCall R) → Except Breach (List R × BlockSum R)
  | [] => .ok ([], s)
  | call :: calls => do
    let (x, s) ← s.sum call.kind call.values call.weights
    let (xs, s) ← s.runAll calls
    return (x :: xs, s)

/-- **A sequence of sums**: every answer is the value of its request, and the size is the largest
of the one before and those that the lists ask for. -/
theorem exists_runAll (s : BlockSum ℝ) (hsize : 0 < s.blockSize) {calls : List (SumCall ℝ)}
    (h : ∀ call ∈ calls, call.IsGiven) : ∃ s' : BlockSum ℝ,
      s.runAll calls = .ok (calls.map SumCall.value, s') ∧
        IsGreatest (insert s.blockSize {n | ∃ call ∈ calls, n = call.size}) s'.blockSize := by
  induction calls generalizing s with
  | nil =>
    refine ⟨s, rfl, Set.mem_insert _ _, ?_⟩
    rintro n (rfl | ⟨call, hcall, -⟩)
    · exact Nat.le_refl _
    · exact absurd hcall List.not_mem_nil
  | cons call calls ih =>
    obtain ⟨mid, hmid, hgrown⟩ := s.exists_sum hsize (h call List.mem_cons_self)
    have hpos : 0 < mid.blockSize := by omega
    obtain ⟨s', hrest, hmem, hle⟩ := ih mid hpos fun c hc => h c (List.mem_cons_of_mem call hc)
    have hmid_le : mid.blockSize ≤ s'.blockSize := hle (Set.mem_insert _ _)
    refine ⟨s', ?_, ?_, ?_⟩
    · exact (bind_of_ok hmid _).trans (bind_of_ok hrest _)
    · -- the largest size is that of a later list, of this one, or the one before
      rcases hmem with heq | ⟨c, hc, heq⟩
      · rcases Nat.le_total s.blockSize call.size with hcase | hcase
        · exact .inr ⟨call, List.mem_cons_self, by omega⟩
        · exact .inl (by omega)
      · exact .inr ⟨c, List.mem_cons_of_mem call hc, heq⟩
    · rintro n (rfl | ⟨c, hc, rfl⟩)
      · omega
      · rcases List.mem_cons.1 hc with rfl | hc
        · omega
        · exact hle (.inr ⟨c, hc, rfl⟩)

/-- **Blocked summation counts everything once.**  A summation for lists of about `n` values answers
every sequence of requests with their values.  Its size is then the largest of the one for `n` and
those for the lengths of the lists, so that the square of the size is no less than any of the
lengths; and it was never larger before. -/
theorem blocked_sums (n : Nat) (calls : List (SumCall ℝ)) (h : ∀ call ∈ calls, call.IsGiven) :
    ∃ s : BlockSum ℝ, (forSize n).runAll calls = .ok (calls.map SumCall.value, s) ∧
      IsGreatest (insert (blockSizeFor ℝ n) {size | ∃ call ∈ calls,
        size = blockSizeFor ℝ call.values.length}) s.blockSize ∧
      (∀ call ∈ calls, call.values.length ≤ s.blockSize * s.blockSize) ∧
      ∀ before, before <+: calls → ∃ s₀ : BlockSum ℝ,
        (forSize n).runAll before = .ok (before.map SumCall.value, s₀) ∧
          s₀.blockSize ≤ s.blockSize := by
  have hpos : 0 < (forSize n : BlockSum ℝ).blockSize := blockSizeFor_pos n
  obtain ⟨s, hrun, hgreatest⟩ := exists_runAll _ hpos h
  have hsize : 0 < s.blockSize := hpos.trans_le (hgreatest.2 (Set.mem_insert _ _))
  refine ⟨s, hrun, hgreatest, fun call hcall => ?_, fun before hbefore => ?_⟩
  · exact (blockSizeFor_le_iff hsize).1 (hgreatest.2 (.inr ⟨call, hcall, rfl⟩))
  · obtain ⟨s₀, hrun₀, hmem₀, -⟩ :=
      exists_runAll _ hpos fun call hcall => h call (hbefore.subset hcall)
    refine ⟨s₀, hrun₀, hgreatest.2 ?_⟩
    rcases hmem₀ with heq | ⟨call, hcall, heq⟩
    · exact .inl heq
    · exact .inr ⟨call, hbefore.subset hcall, heq⟩

/-- A weighted sum, a longer one for which the blocks grow, and one of nothing, for which they
stay. -/
theorem blocked_sums_three :
    ∃ s : BlockSum ℝ, (forSize 1).runAll [⟨.weightedSumAbs, [1, -2, 3], some [1, 2, 3]⟩,
        ⟨.sum, [1, 2, 3, 4, 5], some []⟩, ⟨.sumSquares, [], none⟩] = .ok ([14, 15, 0], s) ∧
      s.blockSize = 3 := by
  have hgiven : ∀ call ∈ ([⟨.weightedSumAbs, [1, -2, 3], some [1, 2, 3]⟩,
      ⟨.sum, [1, 2, 3, 4, 5], some []⟩, ⟨.sumSquares, [], none⟩] : List (SumCall ℝ)),
        call.IsGiven := by
    simp [SumCall.IsGiven, SumKind.isWeighted]
  obtain ⟨s, hrun, ⟨hmem, hle⟩, -, -⟩ := blocked_sums 1 _ hgiven
  refine ⟨s, hrun.trans ?_, Nat.le_antisymm ?_ ?_⟩
  · simp [SumCall.value, SumCall.weight, SumKind.isWeighted, SumKind.term, Fin.sum_univ_succ]
    norm_num
  · have hsmall : ∀ n ≤ 9, blockSizeFor ℝ n ≤ 3 := fun n hn =>
      (blockSizeFor_le_iff (by decide)).2 hn
    rcases hmem with heq | ⟨call, hcall, heq⟩
    · exact heq ▸ hsmall 1 (by decide)
    · rw [heq]
      refine hsmall _ ?_
      simp only [List.mem_cons, List.not_mem_nil, or_false] at hcall
      rcases hcall with rfl | rfl | rfl <;> simp
  · have hlarge : ¬blockSizeFor ℝ 5 ≤ 2 := by
      rw [blockSizeFor_le_iff (by decide)]
      decide
    have hfive : blockSizeFor ℝ 5 ≤ s.blockSize :=
      hle (.inr ⟨⟨.sum, [1, 2, 3, 4, 5], some []⟩, by simp, rfl⟩)
    omega

end BlockSum

end Polyfield
