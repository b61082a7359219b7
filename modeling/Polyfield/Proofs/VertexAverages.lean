import Polyfield.Proofs.AffineQuadrature
import Polyfield.Proofs.CacheContents
import Polyfield.Proofs.EntityValues

/-!
# Averages of vertex values over a cell

The average of vertex values over a cell has its dual volumes as weights.  Bulk evaluation adds up
the values times the dual volumes and divides the sum by the volume; a cache divides the dual
volumes first.  In exact arithmetic both are the sum over `MeshTables.vertexShares`.

* `weightedVertexSum_eq_ok` : a weighted sum of vertex values, component by component;
* `MeshTables.Consistent.vertexAverage`, `MeshTables.Consistent.averageVertices`,
  `CellCache.averageVertices_ofTables` : both averages are `MeshTables.vertexMean`.
-/

namespace Polyfield

/-! ## Weighted sums -/

/-- One component of a weighted sum of vertex values. -/
noncomputable def weightedComponent (values : List ℝ) (stride : Nat)
    (weighted : List (Nat × ℝ)) (j : Nat) : ℝ :=
  (weighted.map fun p => p.2 * values.getD (stride * p.1 + j) 0).sum

/-- An entry of the slot of a vertex. -/
theorem getD_slot (values : List ℝ) (stride v : Nat) {j : Nat} (hj : j < stride) :
    ((values.drop (stride * v)).take stride).getD j 0 = values.getD (stride * v + j) 0 := by
  rw [List.getD_eq_getElem?_getD, List.getElem?_take_of_lt hj, List.getElem?_drop,
    List.getD_eq_getElem?_getD]

/-- **A weighted sum of vertex values**, if there are values for all vertices. -/
theorem weightedVertexSum_eq_ok {values : List ℝ} {stride : Nat} {weighted : List (Nat × ℝ)}
    (h : ∀ p ∈ weighted, stride * (p.1 + 1) ≤ values.length) :
    weightedVertexSum values stride weighted =
      .ok ((List.range stride).map (weightedComponent values stride weighted)) := by
  have hstep : ∀ (acc : List ℝ), ∀ p ∈ weighted,
      (do
        return addScaled p.2 (← slice values (stride * p.1) (stride * (p.1 + 1))) acc) =
      (.ok (addScaled p.2 ((values.drop (stride * p.1)).take stride) acc) :
        Except Breach (List ℝ)) := by
    intro acc p hp
    rw [slice_slot_eq_ok (h p hp)]
    rfl
  rw [weightedVertexSum, foldlM_eq_foldl hstep, foldl_addScaled]
  refine congrArg Except.ok (List.ext_getElem (by simp) fun j hj _ => ?_)
  have hj : j < stride := by simpa using hj
  simp only [List.getElem_mapIdx, List.getElem_replicate, zero_add, List.getElem_map,
    List.getElem_range, getD_slot values stride _ hj]
  rfl

/-! ## The average over a cell -/

namespace MeshTables

/-- The vertices of a cell with their shares of its volume. -/
def vertexShares {R : Type} [Scalar R] (m : MeshTables R) (c : Nat) : List (Nat × R) :=
  (m.cellVertices.getD c []).zip
    ((m.cellDualVolumes.getD c []).map (· * (1 / m.cellVolumes.getD c 0)))

/-- The mean of vertex values over a cell. -/
noncomputable def vertexMean (m : MeshTables ℝ) (c : Nat) (values : List ℝ) (stride : Nat) :
    List ℝ :=
  (List.range stride).map (weightedComponent values stride (m.vertexShares c))

@[simp] theorem length_vertexMean (m : MeshTables ℝ) (c : Nat) (values : List ℝ) (stride : Nat) :
    (m.vertexMean c values stride).length = stride := by
  simp [vertexMean]

@[simp] theorem getElem_vertexMean (m : MeshTables ℝ) (c : Nat) (values : List ℝ) (stride : Nat)
    {j : Nat} (hj : j < (m.vertexMean c values stride).length) :
    (m.vertexMean c values stride)[j] = weightedComponent values stride (m.vertexShares c) j := by
  simp [vertexMean]

/-- Some values for each vertex of a cell. -/
def CoversVertices {R : Type} (m : MeshTables R) (c : Nat) (values : List R) (stride : Nat) :
    Prop :=
  ∀ v ∈ m.cellVertices.getD c [], stride * (v + 1) ≤ values.length

variable {m : MeshTables ℝ} {c stride : Nat} {values : List ℝ}

/-- Dividing the sum is dividing the weights. -/
theorem weightedComponent_scaled (values : List ℝ) (stride : Nat) (vs : List Nat) (ws : List ℝ)
    (a : ℝ) (j : Nat) : weightedComponent values stride (vs.zip (ws.map (· * a))) j =
      weightedComponent values stride (vs.zip ws) j * a := by
  rw [weightedComponent, weightedComponent, List.zip_map_right, List.map_map,
    ← List.sum_map_mul_right]
  refine congrArg List.sum (List.map_congr_left fun p _ => ?_)
  show p.2 * a * values.getD (stride * p.1 + j) 0 = p.2 * values.getD (stride * p.1 + j) 0 * a
  ring

theorem Consistent.vertexAverage (h : m.Consistent c) (hvalues : m.CoversVertices c values stride) :
    m.vertexAverage values stride c = .ok (m.vertexMean c values stride) := by
  have hweighted : m.weightedVertices c =
      .ok ((m.cellVertices.getD c []).zip (m.cellDualVolumes.getD c [])) := by
    rw [weightedVertices, fetch_getD h.vertices_lt [], fetch_getD h.dualVolumes_lt []]
    rfl
  rw [MeshTables.vertexAverage, hweighted, ok_bind,
    weightedVertexSum_eq_ok fun p hp => hvalues p.1 (List.of_mem_zip hp).1, ok_bind,
    fetch_getD h.volume_lt 0, ok_bind, pure_eq_ok, List.map_map]
  refine congrArg Except.ok (List.map_congr_left fun j _ => ?_)
  exact (weightedComponent_scaled values stride _ _ _ j).symm

theorem Consistent.averageVertices (h : m.Consistent c)
    (hvalues : m.CoversVertices c values stride) {buf : Buffer ℝ} (hbuf : stride ≤ buf.length) :
    m.averageVertices c values stride buf =
      .ok (m.vertexMean c values stride ++ buf.drop stride) :=
  updateFirst_eq_ok.2 ⟨hbuf, _, h.vertexAverage hvalues, rfl⟩

end MeshTables

/-- The average from the weights of a cache. -/
theorem CellCache.averageVertices_ofTables {m : MeshTables ℝ} {c stride : Nat} {values : List ℝ}
    {ks : CapabilitySet} (hids : ks.contains .vertexIds = true)
    (hweights : ks.contains .vertexGeometry = true)
    (hvalues : m.CoversVertices c values stride) {buf : Buffer ℝ} (hbuf : stride ≤ buf.length) :
    (ofTables m c ks).averageVertices values stride buf =
      .ok (m.vertexMean c values stride ++ buf.drop stride) := by
  have hneeds : (ofTables m c ks).requires [.vertexGeometry] = .ok () :=
    requires_eq_ok.2 fun k hk => List.mem_singleton.1 hk ▸ hweights
  have hshares : (ofTables m c ks).vertexIds.zip (ofTables m c ks).vertexWeights =
      m.vertexShares c := by
    rw [vertexIds_ofTables hids, vertexWeights_ofTables hweights]
    rfl
  rw [averageVertices, hneeds, ok_bind, hshares]
  refine updateFirst_eq_ok.2 ⟨hbuf, _, weightedVertexSum_eq_ok fun p hp => ?_, rfl⟩
  exact hvalues p.1 (List.of_mem_zip hp).1

end Polyfield
