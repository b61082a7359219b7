import Polyfield.Bulk.VertexInterpolation
import Polyfield.Proofs.DualFaces
import Polyfield.Proofs.EntityValues
import Polyfield.Proofs.SparseSum

/-!
# Interpolated vectors

Interpolation to the vertices adds up weighted vectors in several tasks and merges the sums.  In
exact arithmetic the sums of a vertex are those of a list of `WeightedVector`s, and everything
that is done to the sums is done to the lists: a task puts the contributions of its cells behind
each other, and merging puts two lists behind each other.  So all trees of tasks over the same
cells gather the same list.

* `VertexSums.add_of`, `VertexSums.merge_of` : one contribution more, and two parts together;
* `MeshTables.gather_eq_ok` : what a tree of tasks gathers, by induction on the tree;
* `BulkEvaluator.vectorsAtVertices_means` : every vertex gets the mean of the contributions of all
  cells, for every threshold and schedule.
-/

namespace Polyfield

/-! ## Weighted vectors -/

/-- A vector with a weight. -/
structure WeightedVector where
  weight : ℝ
  vector : Vec3 ℝ

namespace WeightedVector

/-- The sum of the weights. -/
noncomputable def totalWeight (ps : List WeightedVector) : ℝ := (ps.map weight).sum

/-- The sum of the vectors, each times its weight. -/
noncomputable def moment (ps : List WeightedVector) : Vec3 ℝ :=
  (ps.map fun p => p.weight • p.vector).sum

/-- The weighted mean; zero without a positive weight. -/
noncomputable def mean (ps : List WeightedVector) : Vec3 ℝ :=
  if 0 < totalWeight ps then moment ps / totalWeight ps else 0

@[simp] theorem totalWeight_nil : totalWeight [] = 0 := rfl

@[simp] theorem moment_nil : moment [] = 0 := rfl

@[simp] theorem totalWeight_append (ps qs : List WeightedVector) :
    totalWeight (ps ++ qs) = totalWeight ps + totalWeight qs := by
  simp [totalWeight]

@[simp] theorem moment_append (ps qs : List WeightedVector) :
    moment (ps ++ qs) = moment ps + moment qs := by
  simp [moment]

@[simp] theorem totalWeight_singleton (p : WeightedVector) : totalWeight [p] = p.weight := by
  simp [totalWeight]

@[simp] theorem moment_singleton (p : WeightedVector) : moment [p] = p.weight • p.vector := by
  simp [moment]

/-- The mean of a vector with itself. -/
theorem mean_of_forall_eq {ps : List WeightedVector} {u : Vec3 ℝ} (h : ∀ p ∈ ps, p.vector = u)
    (hpos : 0 < totalWeight ps) : mean ps = u := by
  have hmoment : moment ps = totalWeight ps • u := by
    rw [moment, totalWeight, ← sum_map_smul]
    refine congrArg List.sum (List.map_congr_left fun p hp => ?_)
    rw [h p hp]
  rw [mean, if_pos hpos, hmoment, Vec3.div_eq_smul, smul_smul, inv_mul_cancel₀ hpos.ne', one_smul]

end WeightedVector

/-! ## Sums at the vertices -/

namespace VertexSums

open WeightedVector

/-- The sums of some weighted vectors for each of `n` vertices. -/
noncomputable def of (n : Nat) (S : Nat → List WeightedVector) : VertexSums ℝ :=
  ⟨(List.range n).map fun v => totalWeight (S v), (List.range n).map fun v => moment (S v)⟩

variable {n v : Nat}

theorem empty_eq_of (n : Nat) : empty n = of n fun _ => [] := by
  simp [empty, of, List.map_const']

/-- **One contribution more**, to one vertex. -/
theorem add_of (hv : v < n) {S T : Nat → List WeightedVector} (p : WeightedVector)
    (hself : T v = S v ++ [p]) (hother : ∀ x, x ≠ v → T x = S x) :
    (of n S).add p.vector v p.weight = .ok (of n T) := by
  have hweight : totalWeight (S v) + p.weight = totalWeight (T v) := by
    rw [hself, totalWeight_append, totalWeight_singleton]
  have hmoment : moment (S v) + p.weight • p.vector = moment (T v) := by
    rw [hself, moment_append, moment_singleton]
  have hweights := set_map_range n (i := v) fun x hx => congrArg totalWeight (hother x hx)
  have hmoments := set_map_range n (i := v) fun x hx => congrArg moment (hother x hx)
  rw [add, of, fetch_map_range _ hv, ok_bind, fetch_map_range _ hv, ok_bind, hweight, hmoment,
    hweights, hmoments]
  rfl

/-- **Two parts together.** -/
theorem merge_of (n : Nat) (S T : Nat → List WeightedVector) :
    (of n S).merge (of n T) = of n fun v => S v ++ T v := by
  simp [merge, of, List.zipWith_map, List.zipWith_self]

theorem mean_of (hv : v < n) (S : Nat → List WeightedVector) :
    (of n S).mean v = .ok (WeightedVector.mean (S v)) := by
  rw [VertexSums.mean, of, fetch_map_range _ hv, ok_bind, fetch_map_range _ hv, ok_bind]
  rfl

/-- The vector of a cell added to some vertices. -/
theorem foldlM_add_of (u : Vec3 ℝ) {corners : List (Nat × ℝ)} (h : ∀ p ∈ corners, p.1 < n)
    (S : Nat → List WeightedVector) :
    corners.foldlM (fun s p => s.add u p.1 p.2) (of n S) =
      .ok (of n fun v => S v ++ (SparseRow.valuesAt v corners).map (⟨·, u⟩)) := by
  induction corners generalizing S with
  | nil => simp
  | cons p ps ih =>
    obtain ⟨hp, hps⟩ := List.forall_mem_cons.1 h
    have hadd := add_of hp (S := S)
      (T := fun v => S v ++ if p.1 = v then [⟨p.2, u⟩] else []) ⟨p.2, u⟩ (by simp)
      fun x hx => by simp [hx.symm]
    rw [List.foldlM_cons, hadd, ok_bind, ih hps]
    refine congrArg Except.ok (congrArg (of n) (funext fun v => ?_))
    rw [SparseRow.valuesAt_cons]
    by_cases hpv : p.1 = v
    · simp [hpv]
    · simp [hpv]

end VertexSums

/-! ## Vectors of cells -/

/-- The block of fluxes of a cell. -/
def ValueArray.fluxes {R : Type} (a : ValueArray R) (c : Nat) : List R :=
  let index := a.index.getD []
  (a.values.drop (index.getD c 0)).take (index.getD (c + 1) 0 - index.getD c 0)

namespace MeshTables

/-- The vertices of a cell, each with the volume of its part of the cell. -/
def corners {R : Type} (m : MeshTables R) (c : Nat) : List (Nat × R) :=
  (m.cellVertices.getD c []).zip (m.cellDualVolumes.getD c [])

/-- The vector of a cell: the one that an array on the cells has there, or the one that the
fluxes through the dual faces of the cell make. -/
noncomputable def vectorOfCell (m : MeshTables ℝ) (a : ValueArray ℝ) (c : Nat) : Vec3 ℝ :=
  match a.location with
  | .cell => ⟨a.values.getD (3 * c) 0, a.values.getD (3 * c + 1) 0, a.values.getD (3 * c + 2) 0⟩
  | _ => (((m.cellEdges.getD c []).zip (a.fluxes c)).map fun e => e.2 • m.edgeVector e.1).sum /
      m.cellVolumes.getD c 0

/-- An array has all that the vectors of the cells are read from. -/
inductive HasVectors (m : MeshTables ℝ) (a : ValueArray ℝ) : Prop
  | onCells (location_eq : a.location = .cell) (stride_eq : a.stride = 3)
      (values_le : 3 * m.cellCount ≤ a.values.length)
  | onDualFaces (location_eq : a.location = .dualFaceByCell) (index : List Nat)
      (index_eq : a.index = some index)
      (block_le : ∀ c < m.cellCount, c + 1 < index.length ∧
        index.getD c 0 ≤ index.getD (c + 1) 0 ∧ index.getD (c + 1) 0 ≤ a.values.length)
      (edges_lt : ∀ c < m.cellCount, c < m.cellEdges.length)
      (hasEnds : ∀ c < m.cellCount, ∀ e ∈ (m.cellEdges.getD c []).zip (a.fluxes c), m.HasEnds e.1)

/-- All that interpolation to the vertices reads is there. -/
structure CanInterpolate (m : MeshTables ℝ) (a : ValueArray ℝ) : Prop where
  vertices_lt : ∀ c < m.cellCount, c < m.cellVertices.length
  dualVolumes_lt : ∀ c < m.cellCount, c < m.cellDualVolumes.length
  corner_lt : ∀ c < m.cellCount, ∀ p ∈ m.corners c, p.1 < m.vertexCount
  hasVectors : m.HasVectors a

variable {m : MeshTables ℝ} {a : ValueArray ℝ} {c : Nat}

theorem ofComponents_slot {xs : List ℝ} {k : Nat} (h : k + 3 ≤ xs.length) :
    Vec3.ofComponents ((xs.drop k).take 3) =
      .ok ⟨xs.getD k 0, xs.getD (k + 1) 0, xs.getD (k + 2) 0⟩ := by
  have h0 : k < xs.length := by omega
  have h1 : k + 1 < xs.length := by omega
  have h2 : k + 2 < xs.length := by omega
  rw [List.drop_eq_getElem_cons h0, List.drop_eq_getElem_cons h1, List.drop_eq_getElem_cons h2,
    List.getD_eq_getElem _ _ h0, List.getD_eq_getElem _ _ h1, List.getD_eq_getElem _ _ h2]
  rfl

theorem HasVectors.cellVector (h : m.HasVectors a) (hc : c < m.cellCount) :
    m.cellVector a c = .ok (m.vectorOfCell a c) := by
  cases h with
  | onCells hlocation hstride hvalues =>
    have hentity : a.entity c = .ok ((a.values.drop (3 * c)).take 3) := by
      rw [ValueArray.entity, hstride]
      exact slice_slot_eq_ok (by omega)
    rw [MeshTables.cellVector, vectorOfCell, hlocation]
    show (do Vec3.ofComponents (← a.entity c)) = _
    rw [hentity, ok_bind, ofComponents_slot (by omega)]
  | onDualFaces hlocation index hindex hblocks hedges hends =>
    obtain ⟨hlt, hle, hvalues⟩ := hblocks c hc
    have hblock : a.cellBlock c = .ok (a.fluxes c) := by
      rw [ValueArray.cellBlock, hindex]
      show (do slice a.values (← fetch index c) (← fetch index (c + 1))) = _
      rw [fetch_getD (by omega) 0, ok_bind, fetch_getD hlt 0, ok_bind]
      exact slice_eq_ok.2 ⟨hle, hvalues, by rw [ValueArray.fluxes, hindex]; rfl⟩
    rw [MeshTables.cellVector, vectorOfCell, hlocation]
    show (do m.vectorOfFluxes c (← a.cellBlock c)) = _
    rw [hblock, ok_bind, vectorOfFluxes_eq_ok (hedges c hc) hc (hends c hc)]

/-! ## Contributions of cells -/

/-- What a cell contributes to a vertex: its vector once for each corner that it has there. -/
noncomputable def contributions (m : MeshTables ℝ) (a : ValueArray ℝ) (v c : Nat) :
    List WeightedVector :=
  (SparseRow.valuesAt v (m.corners c)).map (⟨·, m.vectorOfCell a c⟩)

/-- The contributions of one cell are put behind those of the cells before. -/
theorem CanInterpolate.addCell (h : m.CanInterpolate a) (hc : c < m.cellCount)
    (S : Nat → List WeightedVector) : m.addCell a (.of m.vertexCount S) c =
      .ok (.of m.vertexCount fun v => S v ++ m.contributions a v c) := by
  have hcorners : m.weightedVertices c = .ok (m.corners c) := by
    rw [weightedVertices, fetch_getD (h.vertices_lt c hc) [], ok_bind,
      fetch_getD (h.dualVolumes_lt c hc) []]
    rfl
  rw [MeshTables.addCell, h.hasVectors.cellVector hc, ok_bind, hcorners, ok_bind]
  exact VertexSums.foldlM_add_of _ (h.corner_lt c hc) S

/-- A task gathers the contributions of its cells. -/
theorem CanInterpolate.foldlM_addCell (h : m.CanInterpolate a) {cells : List Nat}
    (hcells : ∀ c ∈ cells, c < m.cellCount) (S : Nat → List WeightedVector) :
    cells.foldlM (m.addCell a) (.of m.vertexCount S) =
      .ok (.of m.vertexCount fun v => S v ++ cells.flatMap (m.contributions a v)) := by
  induction cells generalizing S with
  | nil => simp
  | cons c cs ih =>
    obtain ⟨hc, hcs⟩ := List.forall_mem_cons.1 hcells
    rw [List.foldlM_cons, h.addCell hc, ok_bind, ih hcs]
    simp only [List.flatMap_cons, List.append_assoc]

/-- **A tree of tasks gathers the contributions of its cells**, however it is divided. -/
theorem gather_eq_ok (h : m.CanInterpolate a) {r : Reduction}
    (hcells : ∀ c ∈ r.cells, c < m.cellCount) :
    m.gather a r = .ok (.of m.vertexCount fun v => r.cells.flatMap (m.contributions a v)) := by
  induction r with
  | empty =>
    rw [gather, VertexSums.empty_eq_of]
    rfl
  | task cells =>
    simp only [Reduction.cells] at hcells ⊢
    rw [gather, VertexSums.empty_eq_of, h.foldlM_addCell hcells]
    simp only [List.nil_append]
  | merge left right ihleft ihright =>
    have hleft := ihleft fun c hc => hcells c (List.mem_append_left _ hc)
    have hright := ihright fun c hc => hcells c (List.mem_append_right _ hc)
    rw [gather, hleft, ok_bind, hright, ok_bind, VertexSums.merge_of]
    simp only [pure_eq_ok, Reduction.cells, List.flatMap_append]

/-- The contributions of all cells to a vertex. -/
noncomputable def allContributions (m : MeshTables ℝ) (a : ValueArray ℝ) (v : Nat) :
    List WeightedVector :=
  (List.range m.cellCount).flatMap (m.contributions a v)

end MeshTables

/-! ## Interpolation -/

namespace BulkEvaluator

open Selection

variable {m : MeshTables ℝ} {a : ValueArray ℝ}

/-- Every division of the cells gathers all of them. -/
theorem gather_reduction {ev : BulkEvaluator ℝ} (hvalid : ev.schedule.Valid)
    (h : ev.mesh.CanInterpolate a) : ev.mesh.gather a ev.reduction =
      .ok (.of ev.mesh.vertexCount (ev.mesh.allContributions a)) := by
  have hcells : ev.reduction.cells = List.range ev.mesh.cellCount := by
    unfold reduction
    split
    · rfl
    · exact hvalid.cells_reduction _
  rw [MeshTables.gather_eq_ok h fun c hc => by rw [hcells] at hc; exact List.mem_range.1 hc,
    hcells]
  rfl

/-- Every vertex holds the mean of the contributions to it, and the entries behind those of the
vertices are as they were. -/
structure HoldsMeans (m : MeshTables ℝ) (a : ValueArray ℝ) (buf out : Buffer ℝ) : Prop where
  length_eq : out.length = buf.length
  vertex : ∀ v < m.vertexCount, slice out (3 * v) (3 * (v + 1)) =
    .ok (WeightedVector.mean (m.allContributions a v)).toList
  frame : ∀ j, 3 * m.vertexCount ≤ j → out[j]? = buf[j]?

/-- The means of some gathered sums are copied to the slots of the vertices. -/
theorem writes_mean (sums : VertexSums ℝ) :
    Writes 3 (fun v slot => do copyTo (← sums.mean v).toList slot)
      (fun v => do return (← sums.mean v).toList) := by
  have hcopy : ∀ v slot, (do copyTo (← sums.mean v).toList slot) =
      (do copyTo (← (do return (← sums.mean v).toList : Except Breach (List ℝ))) slot) := by
    intro v slot
    cases sums.mean v <;> rfl
  simp only [hcopy]
  refine writes_copyTo fun v xs hxs => ?_
  obtain ⟨u, -, hu⟩ := bind_eq_ok.1 hxs
  rw [← Except.ok.inj hu, Vec3.length_toList]

/-- All vertices are selected, so the vectors are interpolated. -/
theorem vectorsAtVertices_eq_ok {ev : BulkEvaluator ℝ} (h : ev.mesh.HasVectors a)
    {buf out : Buffer ℝ} (hrun : ev.interpolateToVertices a buf = .ok out) :
    ev.vectorsAtVertices a (.all ev.mesh.vertexCount) buf = .ok () out := by
  rw [vectorsAtVertices, if_neg (fun hne => hne rfl)]
  cases h with
  | onCells hlocation hstride =>
    rw [hlocation]
    show (if a.stride = 3 then Fill.ofUpdate (ev.interpolateToVertices a) else _) buf = _
    rw [if_pos hstride, Fill.ofUpdate_eq_ok, hrun]
  | onDualFaces hlocation =>
    rw [hlocation]
    exact Fill.ofUpdate_eq_ok.2 hrun

/-- What is copied to the slots of the vertices. -/
theorem interpolateToVertices_eq {ev : BulkEvaluator ℝ} (hvalid : ev.schedule.Valid)
    (h : ev.mesh.CanInterpolate a) (buf : Buffer ℝ) : ev.interpolateToVertices a buf =
      ev.forEach 3 (fun v slot => do
          copyTo (← (VertexSums.of ev.mesh.vertexCount (ev.mesh.allContributions a)).mean v).toList
            slot)
        (.all ev.mesh.vertexCount) buf := by
  have hindex : a.requireIndex = .ok () := by
    unfold ValueArray.requireIndex
    cases h.hasVectors with
    | onCells hlocation => simp [hlocation]
    | onDualFaces _ index hindex => simp [hindex]
  rw [interpolateToVertices, hindex, ok_bind, gather_reduction hvalid h, ok_bind]

/-- One evaluator: the run succeeds, and leaves the means. -/
theorem exists_filled_means {ev : BulkEvaluator ℝ} (hvalid : ev.schedule.Valid)
    (h : ev.mesh.CanInterpolate a) {buf : Buffer ℝ} (hbuf : 3 * ev.mesh.vertexCount ≤ buf.length) :
    ∃ out, ev.vectorsAtVertices a (.all ev.mesh.vertexCount) buf = .ok () out ∧
      Filled 3 (fun v => .ok (WeightedVector.mean (ev.mesh.allContributions a v)).toList)
        (· < ev.mesh.vertexCount) buf out := by
  have hwrites := writes_mean (.of ev.mesh.vertexCount (ev.mesh.allContributions a))
  have hmean : ∀ v < ev.mesh.vertexCount,
      (do return (← (VertexSums.of ev.mesh.vertexCount
          (ev.mesh.allContributions a)).mean v).toList : Except Breach (List ℝ)) =
        .ok (WeightedVector.mean (ev.mesh.allContributions a v)).toList := by
    intro v hv
    rw [VertexSums.mean_of hv]
    rfl
  have hfits : (Selection.all ev.mesh.vertexCount).Fits 3 buf := by
    intro v hv
    have hlt := mem_targets_all.1 hv
    omega
  obtain ⟨out, hout⟩ : ∃ out, ev.forEach 3 _ (.all ev.mesh.vertexCount) buf = .ok out :=
    hwrites.exists_parForEach hvalid.order_perm (by decide) hfits
      fun v hv => ⟨_, hmean v (List.mem_range.1 hv)⟩
  refine ⟨out, ?_, ?_⟩
  · exact vectorsAtVertices_eq_ok h.hasVectors ((interpolateToVertices_eq hvalid h buf).trans hout)
  · refine (hwrites.filled_parForEach hvalid.order_perm hout).congr (by simp) fun v hv => ?_
    exact (hmean v hv).symm

/-- **Interpolation to the vertices is a reduction.**  Every vertex gets the mean of the
contributions of all cells, or zero without a positive weight, with the same result for every
threshold and every division of the cells into tasks; where all cells have the same vector, that
is the mean. -/
theorem vectorsAtVertices_means (h : m.CanInterpolate a) {buf : Buffer ℝ}
    (hbuf : 3 * m.vertexCount ≤ buf.length) :
    ∃ out, HoldsMeans m a buf out ∧
      (∀ ev : BulkEvaluator ℝ, ev.mesh = m → ev.schedule.Valid →
        ev.vectorsAtVertices a (.all m.vertexCount) buf = .ok () out) ∧
      ∀ u, (∀ c < m.cellCount, m.vectorOfCell a c = u) → ∀ v < m.vertexCount,
        0 < WeightedVector.totalWeight (m.allContributions a v) →
          slice out (3 * v) (3 * (v + 1)) = .ok u.toList := by
  let sequential : BulkEvaluator ℝ := ⟨m, .default, .sequential⟩
  have hsequential : sequential.schedule.Valid := Schedule.valid_sequential
  obtain ⟨out, -, hfilled⟩ := exists_filled_means hsequential h hbuf
  have hholds : HoldsMeans m a buf out := by
    refine ⟨hfilled.length_eq, fun v hv => ?_, fun j hj => hfilled.frame j fun v hv => ?_⟩
    · obtain ⟨xs, hxs, hslot⟩ := hfilled.slot v hv
      rw [hslot, ← hxs]
    · intro hslot
      have hlt : v < m.vertexCount := hv
      omega
  refine ⟨out, hholds, ?_, ?_⟩
  · rintro ev rfl hvalid
    obtain ⟨out', hrun, hfilled'⟩ := exists_filled_means hvalid h hbuf
    rw [hrun, hfilled.unique hfilled']
  · intro u hu v hv hpos
    have hmean : WeightedVector.mean (m.allContributions a v) = u := by
      refine WeightedVector.mean_of_forall_eq (fun p hp => ?_) hpos
      obtain ⟨c, hc, hp⟩ := List.mem_flatMap.1 hp
      obtain ⟨w, -, rfl⟩ := List.mem_map.1 hp
      exact hu c (List.mem_range.1 hc)
    rw [hholds.vertex v hv, hmean]

/-- Two cells with vertex `1` in common; vertex `2` belongs to no cell. -/
noncomputable def twoCells : MeshTables ℝ where
  vertexPoints := [0, 0, 0]
  cellCenters := [0, 0]
  boundaryFaceCenters := []
  boundaryFaces := []
  cellVolumes := [(2 : ℕ), (3 : ℕ)]
  faceCenters := []
  faceNormals := []
  faceAreas := []
  edges := []
  cellVertices := [[0, 1], [1]]
  cellEdges := [[], []]
  cellFaces := [[], []]
  faceEdges := []
  cellDualVolumes := [[1, 1], [(3 : ℕ)]]
  cellDualFaces := [[], []]
  cellFaceSigns := [[], []]

/-- One task for the first cell and one for the others, merged with tasks without cells. -/
def splitSchedule : Schedule :=
  ⟨fun n => (List.range n).reverse, fun n =>
    .merge (.merge .empty (.task ((List.range n).take 1)))
      (.merge (.task []) (.task ((List.range n).drop 1)))⟩

theorem valid_splitSchedule : splitSchedule.Valid where
  order_perm n := List.reverse_perm _
  cells_reduction n := by
    show ([] ++ (List.range n).take 1) ++ ([] ++ (List.range n).drop 1) = List.range n
    rw [List.nil_append, List.nil_append, List.take_append_drop]

/-- Vertex `1` takes three of four parts from the second cell, and vertex `2` is set to zero. -/
theorem vectorsAtVertices_means_twoCells :
    twoCells.CanInterpolate ⟨[1, 2, 3, 5, 6, 7], 3, .cell, none⟩ ∧
    ∃ out, BulkEvaluator.vectorsAtVertices ⟨twoCells, ⟨.bary, 0⟩, splitSchedule⟩
        ⟨[1, 2, 3, 5, 6, 7], 3, .cell, none⟩ (.all 3) [9, 9, 9, 9, 9, 9, 9, 9, 9, 9] =
          .ok () out ∧
      slice out 3 6 = .ok [4, 5, 6] ∧ slice out 6 9 = .ok [0, 0, 0] ∧ out[9]? = some 9 := by
  have hcan : twoCells.CanInterpolate ⟨[1, 2, 3, 5, 6, 7], 3, .cell, none⟩ := by
    have htwo : ∀ c < twoCells.cellCount, c = 0 ∨ c = 1 := by
      intro c hc
      simp only [MeshTables.cellCount, twoCells, List.length_cons, List.length_nil] at hc
      omega
    refine ⟨?_, ?_, ?_, .onCells rfl rfl (by simp [MeshTables.cellCount, twoCells])⟩
    · intro c hc
      rcases htwo c hc with rfl | rfl <;> simp [twoCells]
    · intro c hc
      rcases htwo c hc with rfl | rfl <;> simp [twoCells]
    · intro c hc
      rcases htwo c hc with rfl | rfl <;>
        simp [MeshTables.corners, MeshTables.vertexCount, twoCells]
  have hroom : 3 * twoCells.vertexCount ≤ ([9, 9, 9, 9, 9, 9, 9, 9, 9, 9] : Buffer ℝ).length := by
    simp [MeshTables.vertexCount, twoCells]
  obtain ⟨out, hholds, hrun, -⟩ := vectorsAtVertices_means hcan hroom
  have hone : twoCells.allContributions ⟨[1, 2, 3, 5, 6, 7], 3, .cell, none⟩ 1 =
      [⟨1, ⟨1, 2, 3⟩⟩, ⟨3, ⟨5, 6, 7⟩⟩] := rfl
  have htwo : twoCells.allContributions ⟨[1, 2, 3, 5, 6, 7], 3, .cell, none⟩ 2 = [] := rfl
  have hmean : WeightedVector.mean [⟨1, ⟨1, 2, 3⟩⟩, ⟨3, ⟨5, 6, 7⟩⟩] = ⟨4, 5, 6⟩ := by
    ext <;> norm_num [WeightedVector.mean, WeightedVector.totalWeight, WeightedVector.moment]
  refine ⟨hcan, out, hrun _ rfl valid_splitSchedule, ?_, ?_, ?_⟩
  · exact (hholds.vertex 1 (by decide)).trans (by rw [hone, hmean]; rfl)
  · exact (hholds.vertex 2 (by decide)).trans (by simp [htwo, WeightedVector.mean, Vec3.toList])
  · exact hholds.frame 9 (by decide)

end BulkEvaluator

end Polyfield
