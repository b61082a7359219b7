import Mathlib.Tactic.IntervalCases
import Polyfield.Cell.Value
import Polyfield.Proofs.BuiltCache
import Polyfield.Proofs.BulkAddressing
import Polyfield.Proofs.DualFaces
import Polyfield.Proofs.VertexAverages

/-!
# Values in a cell, in bulk and from its cache

A quantity is evaluated at cells in bulk or, cell by cell, from caches.  Constants, functions and
values stored for cells come out the same in any arithmetic, since both ways read the same entries.
Averages of vertex values and vectors of fluxes are computed in two ways, which agree where
arithmetic is exact.

* `Source.cellValue` : the value that bulk evaluation gives to a cell;
* `BulkCall.entrywise_evaluate_cell` : and that it does so for every source with such a value;
* `CellCache.value_ofTables_of_isStored`, `CellCache.value_ofTables` : a full cache gives that value
  in any arithmetic, or in exact arithmetic;
* `CellCache.cell_values` : the agreement, and the refusals of all other supports.
-/

namespace Polyfield

variable {R : Type} [Scalar R]

/-! ## Sources with values in a cell -/

namespace Source

/-- A source with components that holds the values from which its value in a cell is made. -/
def HasCellValue (m : MeshTables R) (c : Nat) (s : Source R) : Prop :=
  1 ≤ s.dim ∧
    match s with
    | constant _ | function _ => True
    | array a =>
      match a.location with
      | .cell => a.stride * (c + 1) ≤ a.values.length
      | .vertex => m.CoversVertices c a.values a.stride
      | .dualFaceByCell => ∃ fluxes, a.cellBlock c = .ok fluxes
      | _ => False
    | field f =>
      match f.location with
      | .cell => f.dim * (c + 1) ≤ f.values.length
      | .vertex => m.CoversVertices c f.values f.dim
      | _ => False

/-- A source whose value in a cell is not made from other values. -/
def IsStored : Source R → Prop
  | constant _ | function _ => True
  | array a => a.location = .cell
  | field f => f.location = .cell

/-- The value that bulk evaluation gives to a cell. -/
def cellValue (m : MeshTables R) (t : R) (s : Source R) (c : Nat) : Except Breach (List R) :=
  match s with
  | constant v => .ok v.components
  | function f => f.componentsAt t m.cellCenters c
  | array a =>
    match a.location with
    | .cell => a.entity c
    | .vertex => m.vertexAverage a.values a.stride c
    | .dualFaceByCell => m.fluxVector a c
    | _ => .error .outOfRange
  | field f =>
    match f.location with
    | .cell => f.entity c
    | .vertex => m.vertexAverage f.values f.dim c
    | _ => .error .outOfRange

section Locations

variable (m : MeshTables R) (t : R)

theorem cellValue_array_cell {a : ValueArray R} (h : a.location = .cell) :
    (array a).cellValue m t = a.entity := by
  funext c
  simp only [cellValue, h]

theorem cellValue_array_vertex {a : ValueArray R} (h : a.location = .vertex) :
    (array a).cellValue m t = m.vertexAverage a.values a.stride := by
  funext c
  simp only [cellValue, h]

theorem cellValue_array_dualFace {a : ValueArray R} (h : a.location = .dualFaceByCell) :
    (array a).cellValue m t = m.fluxVector a := by
  funext c
  simp only [cellValue, h]

theorem cellValue_field_cell {f : ValueField R} (h : f.location = .cell) :
    (field f).cellValue m t = f.entity := by
  funext c
  simp only [cellValue, h]

theorem cellValue_field_vertex {f : ValueField R} (h : f.location = .vertex) :
    (field f).cellValue m t = m.vertexAverage f.values f.dim := by
  funext c
  simp only [cellValue, h]

end Locations

/-- A stored value exists in every cell that the source has one for. -/
theorem exists_cellValue_of_isStored {m : MeshTables R} {c : Nat} {s : Source R} (t : R)
    (hc : c < m.cellCenters.length) (hs : s.HasCellValue m c) (hstored : s.IsStored) :
    ∃ v, s.cellValue m t c = .ok v := by
  obtain ⟨-, hvalues⟩ := hs
  cases s with
  | constant v => exact ⟨_, rfl⟩
  | function f =>
    refine ⟨f.components t m.cellCenters[c], ?_⟩
    rw [cellValue, SpaceTimeFunction.componentsAt, fetch_of_lt hc]
    rfl
  | array a =>
    have hloc : a.location = .cell := hstored
    simp only [hloc] at hvalues
    rw [cellValue_array_cell m t hloc]
    exact ⟨_, slice_slot_eq_ok hvalues⟩
  | field f =>
    have hloc : f.location = .cell := hstored
    simp only [hloc] at hvalues
    rw [cellValue_field_cell m t hloc]
    exact ⟨_, slice_slot_eq_ok hvalues⟩

/-- In exact arithmetic the other values exist as well. -/
theorem exists_cellValue {m : MeshTables ℝ} {c : Nat} {s : Source ℝ} (t : ℝ)
    (h : m.Consistent c) (hs : s.HasCellValue m c) : ∃ v, s.cellValue m t c = .ok v := by
  by_cases hstored : s.IsStored
  · exact exists_cellValue_of_isStored t h.center_lt hs hstored
  obtain ⟨-, hvalues⟩ := hs
  cases s with
  | constant v => exact absurd trivial hstored
  | function f => exact absurd trivial hstored
  | array a =>
    cases hloc : a.location with
    | cell => exact absurd hloc hstored
    | vertex =>
      simp only [hloc] at hvalues
      rw [cellValue_array_vertex m t hloc]
      exact ⟨_, h.vertexAverage hvalues⟩
    | dualFaceByCell =>
      simp only [hloc] at hvalues
      obtain ⟨fluxes, hfluxes⟩ := hvalues
      rw [cellValue_array_dualFace m t hloc, MeshTables.fluxVector, hfluxes, ok_bind,
        h.vectorOfFluxes]
      exact ⟨_, rfl⟩
    | _ => simp only [hloc] at hvalues
  | field f =>
    cases hloc : f.location with
    | cell => exact absurd hloc hstored
    | vertex =>
      simp only [hloc] at hvalues
      rw [cellValue_field_vertex m t hloc]
      exact ⟨_, h.vertexAverage hvalues⟩
    | _ => simp only [hloc] at hvalues

end Source

/-! ## Bulk evaluation -/

omit [Scalar R] in
theorem ValueArray.requireIndex_of_ne {a : ValueArray R} (h : a.location ≠ .dualFaceByCell) :
    a.requireIndex = .ok () :=
  if_neg fun hindex => h hindex.1

omit [Scalar R] in
theorem ValueArray.requireIndex_of_cellBlock {a : ValueArray R} {c : Nat} {fluxes : List R}
    (h : a.cellBlock c = .ok fluxes) : a.requireIndex = .ok () := by
  refine if_neg fun hindex => ?_
  have hnone : a.index = none := by simpa using hindex.2
  rw [cellBlock, hnone] at h
  cases h

/-- **Bulk evaluation gives every cell its value.** -/
theorem BulkCall.entrywise_evaluate_cell {m : MeshTables R} {level : Level} {q : Quantity R}
    {c : Nat} (hq : q.source.HasCellValue m c) (t : R) :
    Entrywise m level q.dim (q.source.cellValue m t) (evaluate q .cell t).run := by
  obtain ⟨support, source⟩ := q
  obtain ⟨-, hvalues⟩ := hq
  cases source with
  | constant v => exact entrywise_constant v
  | function f => exact entrywise_functionAtCells f t
  | array a =>
    cases hloc : a.location with
    | cell =>
      rw [Source.cellValue_array_cell m t hloc]
      exact entrywise_arrayAtCells_cell (ValueArray.requireIndex_of_ne (by simp [hloc])) hloc
    | vertex =>
      rw [Source.cellValue_array_vertex m t hloc]
      exact entrywise_arrayAtCells_vertex (ValueArray.requireIndex_of_ne (by simp [hloc])) hloc
    | dualFaceByCell =>
      simp only [hloc] at hvalues
      obtain ⟨fluxes, hfluxes⟩ := hvalues
      rw [Source.cellValue_array_dualFace m t hloc]
      exact entrywise_arrayAtCells_dualFace (ValueArray.requireIndex_of_cellBlock hfluxes) hloc
    | _ => simp only [hloc] at hvalues
  | field f =>
    cases hloc : f.location with
    | cell =>
      rw [Source.cellValue_field_cell m t hloc]
      exact entrywise_fieldAtCells_cell hloc
    | vertex =>
      rw [Source.cellValue_field_vertex m t hloc]
      exact entrywise_fieldAtCells_vertex hloc
    | _ => simp only [hloc] at hvalues

/-! ## Caches -/

omit [Scalar R] in
/-- Copying values to the front of a buffer. -/
theorem updateFirst_copyTo {dim : Nat} {read : Except Breach (List R)} {values : List R}
    (hread : read = .ok values) (hlen : values.length = dim) {buf : Buffer R}
    (hbuf : dim ≤ buf.length) :
    updateFirst dim (fun slot => do copyTo (← read) slot) buf = .ok (values ++ buf.drop dim) := by
  refine updateFirst_eq_ok.2 ⟨hbuf, values, ?_, rfl⟩
  rw [hread, ok_bind, copyTo_eq_ok, List.length_take_of_le hbuf, hlen]
  exact ⟨rfl, rfl⟩

/-- A cell of nonzero volume whose edges have nonzero lengths. -/
structure MeshTables.Nondegenerate (m : MeshTables ℝ) (c : Nat) : Prop where
  volume_ne_zero : m.cellVolumes.getD c 0 ≠ 0
  norm_ne_zero : ∀ e ∈ m.cellEdges.getD c [], (m.edgeVector e).norm ≠ 0

namespace CellCache

theorem functionAtCenter_ofTables {m : MeshTables R} {c : Nat} {f : SpaceTimeFunction R}
    (hdim : f.dim ≠ 0) {t : R} {buf : Buffer R} (hbuf : f.dim ≤ buf.length) :
    (ofTables m c .all).functionAtCenter f t buf =
      .ok (f.components t (m.cellCenters.getD c 0) ++ buf.drop f.dim) := by
  refine (Selection.forEach_all_eq_ok (f.writes_componentsAt t [m.cellCenters.getD c 0])).2 ?_
  refine ⟨by rwa [Nat.mul_one], hdim, [f.components t (m.cellCenters.getD c 0)], rfl, ?_⟩
  rw [Nat.mul_one, List.flatten_singleton]

/-- **A full cache gives a cell its stored value**, in any arithmetic. -/
theorem value_ofTables_of_isStored {m : MeshTables R} {c : Nat} {t : R} {q : Quantity R}
    (h : m.Consistent c) (hq : q.source.HasCellValue m c) (hstored : q.source.IsStored)
    {value : List R} (hvalue : q.source.cellValue m t c = .ok value) {buf : Buffer R}
    (hbuf : q.dim ≤ buf.length) :
    (ofTables m c .all).value q t buf = .ok () (value ++ buf.drop q.dim) := by
  obtain ⟨support, source⟩ := q
  cases source with
  | constant v =>
    cases hvalue
    exact Fill.ofUpdate_eq_ok.2 (Value.writeTo_eq_ok hbuf)
  | function f =>
    have hdim : f.dim ≠ 0 := Nat.ne_of_gt hq.1
    rw [Source.cellValue, SpaceTimeFunction.componentsAt, fetch_getD h.center_lt 0] at hvalue
    cases hvalue
    exact Fill.ofUpdate_eq_ok.2 (functionAtCenter_ofTables hdim hbuf)
  | array a =>
    have hloc : a.location = .cell := hstored
    have hdim : a.dim = a.stride := by rw [ValueArray.dim, hloc]
    have hbuf : a.stride ≤ buf.length := hdim ▸ hbuf
    rw [Source.cellValue_array_cell m t hloc] at hvalue
    show (ofTables m c .all).arrayValue a buf = .ok () (value ++ buf.drop a.dim)
    simp only [arrayValue, hloc, hdim]
    exact Fill.ofUpdate_eq_ok.2 (updateFirst_copyTo hvalue (ValueArray.length_entity hvalue) hbuf)
  | field f =>
    have hloc : f.location = .cell := hstored
    rw [Source.cellValue_field_cell m t hloc] at hvalue
    show (ofTables m c .all).fieldValue f buf = .ok () (value ++ buf.drop f.dim)
    simp only [fieldValue, hloc]
    exact Fill.ofUpdate_eq_ok.2 (updateFirst_copyTo hvalue (ValueField.length_entity hvalue) hbuf)

/-- **A full cache gives a cell its value**, in exact arithmetic. -/
theorem value_ofTables {m : MeshTables ℝ} {c : Nat} {t : ℝ} {q : Quantity ℝ} (h : m.Consistent c)
    (hc : m.Nondegenerate c) (hq : q.source.HasCellValue m c) {value : List ℝ}
    (hvalue : q.source.cellValue m t c = .ok value) {buf : Buffer ℝ} (hbuf : q.dim ≤ buf.length) :
    (ofTables m c .all).value q t buf = .ok () (value ++ buf.drop q.dim) := by
  have hall : ∀ k, CapabilitySet.all.contains k = true := CapabilitySet.contains_all
  by_cases hstored : q.source.IsStored
  · exact value_ofTables_of_isStored h hq hstored hvalue hbuf
  obtain ⟨support, source⟩ := q
  obtain ⟨-, hvalues⟩ := hq
  cases source with
  | constant v => exact absurd trivial hstored
  | function f => exact absurd trivial hstored
  | array a =>
    show (ofTables m c .all).arrayValue a buf = .ok () (value ++ buf.drop a.dim)
    cases hloc : a.location with
    | cell => exact absurd hloc hstored
    | vertex =>
      have hdim : a.dim = a.stride := by rw [ValueArray.dim, hloc]
      simp only [hloc] at hvalues
      rw [Source.cellValue_array_vertex m t hloc, h.vertexAverage hvalues] at hvalue
      cases hvalue
      simp only [arrayValue, hloc, hdim]
      exact Fill.ofUpdate_eq_ok.2 (averageVertices_ofTables (hall _) (hall _) hvalues (hdim ▸ hbuf))
    | dualFaceByCell =>
      have hdim : a.dim = 3 := by rw [ValueArray.dim, hloc]
      have hbuf : 3 ≤ buf.length := hdim ▸ hbuf
      have hneeds : (ofTables m c .all).requires [.edgeGeometry] = .ok () :=
        requires_eq_ok.2 fun k _ => hall k
      simp only [hloc] at hvalues
      obtain ⟨fluxes, hfluxes⟩ := hvalues
      rw [Source.cellValue_array_dualFace m t hloc, MeshTables.fluxVector, hfluxes, ok_bind,
        h.vectorOfFluxes] at hvalue
      cases hvalue
      simp only [arrayValue, hloc, hdim]
      refine Fill.ofUpdate_eq_ok.2 ?_
      show (do (ofTables m c .all).writeVectorOfFluxes (← a.cellBlock c) buf) = _
      rw [hfluxes, ok_bind, writeVectorOfFluxes, hneeds, ok_bind,
        vectorOfFluxes_ofTables (hall _) hc.norm_ne_zero]
      exact overwriteFirst_eq_ok hbuf
    | _ => simp only [hloc] at hvalues
  | field f =>
    show (ofTables m c .all).fieldValue f buf = .ok () (value ++ buf.drop f.dim)
    cases hloc : f.location with
    | cell => exact absurd hloc hstored
    | vertex =>
      simp only [hloc] at hvalues
      rw [Source.cellValue_field_vertex m t hloc, h.vertexAverage hvalues] at hvalue
      cases hvalue
      simp only [fieldValue, hloc]
      exact Fill.ofUpdate_eq_ok.2 (averageVertices_ofTables (hall _) (hall _) hvalues hbuf)
    | _ => simp only [hloc] at hvalues

end CellCache

/-! ## Agreement -/

/-- A quantity has one value in a cell: its cache puts the value in front of a buffer, and bulk
evaluation puts it into the slots of the cell. -/
def SameCellValue (m : MeshTables R) (c : Nat) (cm : CellCache R) (q : Quantity R) (t : R) :
    Prop :=
  ∃ value : List R, value.length = q.dim ∧
    (∀ buf : Buffer R, q.dim ≤ buf.length →
      cm.value q t buf = .ok () (value ++ buf.drop q.dim)) ∧
    ∀ (ev : BulkEvaluator R) (level : Level), ev.For m level →
      PutsValue (fun c' => c' < m.cellCount ∧ q.source.HasCellValue m c') q.dim
        (ev.evaluate q .cell · t) c value

theorem sameCellValue {m : MeshTables R} {c : Nat} {cm : CellCache R} {q : Quantity R} {t : R}
    (hq : q.source.HasCellValue m c)
    (hexists : ∀ c' < m.cellCount, q.source.HasCellValue m c' →
      ∃ v, q.source.cellValue m t c' = .ok v)
    {value : List R} (hvalue : q.source.cellValue m t c = .ok value)
    (hcache : ∀ buf : Buffer R, q.dim ≤ buf.length →
      cm.value q t buf = .ok () (value ++ buf.drop q.dim)) : SameCellValue m c cm q t := by
  have hbulk : ∀ level, Entrywise m level q.dim (q.source.cellValue m t)
      (BulkCall.evaluate q .cell t).run := fun _ => BulkCall.entrywise_evaluate_cell hq t
  refine ⟨value, (hbulk .bary).length_eq c value hvalue, hcache, fun ev level hev => ?_⟩
  exact (hbulk level).putsValue hev (Nat.ne_of_gt hq.1) (fun c' hc' => hexists c' hc'.1 hc'.2)
    hvalue

/-- A routine that refuses a support, whatever the buffer, and leaves the buffer as it was. -/
def RefusesSupport (run : Fill R Unit) (op : Operation) (s : Support) : Prop :=
  ∀ buf, run buf = .error (.refused (.unsupportedSupport op s)) buf

theorem arrayAtCells_refuses {a : ValueArray R} (hcell : a.location ≠ .cell)
    (hvertex : a.location ≠ .vertex) (hdual : a.location ≠ .dualFaceByCell)
    (ev : BulkEvaluator R) (sel : Selection) :
    RefusesSupport (ev.arrayAtCells a sel) .arrayAtCells a.location := by
  intro buf
  rw [BulkEvaluator.arrayAtCells, Fill.check_bind (ValueArray.requireIndex_of_ne hdual)]
  cases hloc : a.location with
  | cell => exact absurd hloc hcell
  | vertex => exact absurd hloc hvertex
  | dualFaceByCell => exact absurd hloc hdual
  | face => rfl
  | boundaryFace => rfl

theorem arrayValue_refuses {a : ValueArray R} (hcell : a.location ≠ .cell)
    (hvertex : a.location ≠ .vertex) (hdual : a.location ≠ .dualFaceByCell) (cm : CellCache R) :
    RefusesSupport (cm.arrayValue a) .arrayInCell a.location := by
  intro buf
  rw [CellCache.arrayValue]
  cases hloc : a.location with
  | cell => exact absurd hloc hcell
  | vertex => exact absurd hloc hvertex
  | dualFaceByCell => exact absurd hloc hdual
  | face => rfl
  | boundaryFace => rfl

theorem fieldAtCells_refuses {f : ValueField R} (hcell : f.location ≠ .cell)
    (hvertex : f.location ≠ .vertex) (ev : BulkEvaluator R) (sel : Selection) :
    RefusesSupport (ev.fieldAtCells f sel) .fieldAtCells f.location := by
  intro buf
  rw [BulkEvaluator.fieldAtCells]
  cases hloc : f.location with
  | cell => exact absurd hloc hcell
  | vertex => exact absurd hloc hvertex
  | _ => rfl

theorem fieldValue_refuses {f : ValueField R} (hcell : f.location ≠ .cell)
    (hvertex : f.location ≠ .vertex) (cm : CellCache R) :
    RefusesSupport (cm.fieldValue f) .fieldInCell f.location := by
  intro buf
  rw [CellCache.fieldValue]
  cases hloc : f.location with
  | cell => exact absurd hloc hcell
  | vertex => exact absurd hloc hvertex
  | _ => rfl

/-- **Values in a cell.**  For every cell of a new mesh, bulk evaluation and the cache with all
capabilities give constants, functions and values stored for cells the same value in any
arithmetic, and both refuse arrays and fields of which they can make nothing, with the support that
they name.  Where arithmetic is exact they also agree on vertex values and on fluxes through dual
faces, if the cell and its edges have a size. -/
theorem CellCache.cell_values :
    (∀ {R : Type} [Scalar R] (vertices : List (Vec3 R)) (cells : List (List Loop))
      (m : PolyhedralMesh R) (c : Nat), PolyhedralMesh.build vertices cells = .ok m →
        c < m.cellCount → ∃ cm, build m.toMeshTables c .all = .ok cm ∧
          (∀ (q : Quantity R) (t : R), q.source.HasCellValue m.toMeshTables c →
            q.source.IsStored → SameCellValue m.toMeshTables c cm q t) ∧
          (∀ (s : Support) (a : ValueArray R) (t : R), a.location ≠ .cell →
            a.location ≠ .vertex → a.location ≠ .dualFaceByCell →
              RefusesSupport (cm.value ⟨s, .array a⟩ t) .arrayInCell a.location ∧
              ∀ (ev : BulkEvaluator R) (sel : Selection),
                RefusesSupport (ev.evaluate ⟨s, .array a⟩ .cell sel t) .arrayAtCells a.location) ∧
          ∀ (s : Support) (f : ValueField R) (t : R), f.location ≠ .cell → f.location ≠ .vertex →
            RefusesSupport (cm.value ⟨s, .field f⟩ t) .fieldInCell f.location ∧
            ∀ (ev : BulkEvaluator R) (sel : Selection),
              RefusesSupport (ev.evaluate ⟨s, .field f⟩ .cell sel t) .fieldAtCells f.location) ∧
    ∀ (vertices : List (Vec3 ℝ)) (cells : List (List Loop)) (m : PolyhedralMesh ℝ) (c : Nat),
      PolyhedralMesh.build vertices cells = .ok m → c < m.cellCount → m.Nondegenerate c →
        ∃ cm, build m.toMeshTables c .all = .ok cm ∧
          ∀ (q : Quantity ℝ) (t : ℝ), q.source.HasCellValue m.toMeshTables c →
            SameCellValue m.toMeshTables c cm q t := by
  constructor
  · intro R _ vertices cells m c hm hc
    have hcons := PolyhedralMesh.consistent_of_build hm hc
    refine ⟨_, build_eq_ofTables hcons CapabilitySet.closed_all, fun q t hq hstored => ?_,
      fun s a t hcell hvertex hdual => ⟨arrayValue_refuses hcell hvertex hdual _,
        arrayAtCells_refuses hcell hvertex hdual⟩,
      fun s f t hcell hvertex => ⟨fieldValue_refuses hcell hvertex _,
        fieldAtCells_refuses hcell hvertex⟩⟩
    obtain ⟨value, hvalue⟩ := Source.exists_cellValue_of_isStored t hcons.center_lt hq hstored
    refine sameCellValue hq (fun c' hc' hq' => ?_) hvalue fun buf hbuf =>
      value_ofTables_of_isStored hcons hq hstored hvalue hbuf
    exact Source.exists_cellValue_of_isStored t
      (PolyhedralMesh.consistent_of_build hm hc').center_lt hq' hstored
  · intro vertices cells m c hm hc hsize
    have hcons := PolyhedralMesh.consistent_of_build hm hc
    refine ⟨_, build_eq_ofTables hcons CapabilitySet.closed_all, fun q t hq => ?_⟩
    obtain ⟨value, hvalue⟩ := Source.exists_cellValue t hcons hq
    refine sameCellValue hq (fun c' hc' hq' => ?_) hvalue fun buf hbuf =>
      value_ofTables hcons hsize hq hvalue hbuf
    exact Source.exists_cellValue t (PolyhedralMesh.consistent_of_build hm hc') hq'

namespace Tetrahedron

theorem nondegenerate_unitMesh : unitMesh.Nondegenerate 0 where
  volume_ne_zero := (regularCell_unitMesh.volume_pos build_unitMesh).ne'
  norm_ne_zero e he := by
    have hlt := (PolyhedralMesh.consistent_of_build build_unitMesh lt_cellCount).edge_lt e he
    have hlt : e < 6 := by
      simpa [unitMesh, mesh, PolyhedralMesh.assemble, numbering] using hlt
    rw [Ne, Vec3.norm_eq_zero]
    intro hzero
    rw [MeshTables.edgeVector, Vec3.ext_iff] at hzero
    interval_cases e <;>
      simp [MeshTables.ends, MeshTables.point, unitMesh, mesh, PolyhedralMesh.assemble,
        numbering] at hzero

end Tetrahedron

/-- In the unit tetrahedron the average of vertex values, and the value of a function; values on
faces are refused. -/
theorem cell_values_unitMesh :
    ∃ (cm : CellCache ℝ) (value out : List ℝ),
      CellCache.build Tetrahedron.unitMesh.toMeshTables 0 .all = .ok cm ∧
      cm.value ⟨.vertex, .array ⟨[1, 2, 3, 4], 1, .vertex, none⟩⟩ 0 [7, 7] =
        .ok () (value ++ [7]) ∧
      BulkEvaluator.evaluate ⟨Tetrahedron.unitMesh.toMeshTables, .default, .sequential⟩
        ⟨.vertex, .array ⟨[1, 2, 3, 4], 1, .vertex, none⟩⟩ .cell (.compact [0, 0]) 0 [7, 7] =
          .ok () out ∧
      slice out 1 2 = .ok value ∧
      SameCellValue Tetrahedron.unitMesh.toMeshTables 0 cm
        ⟨.cell, .function ⟨1, fun t x => #v[t * x.y]⟩⟩ 5 ∧
      RefusesSupport (cm.value ⟨.face, .array ⟨[1, 2, 3, 4], 1, .face, none⟩⟩ 0) .arrayInCell
        .face := by
  have hm := Tetrahedron.build_unitMesh
  have hc := Tetrahedron.regularCell_unitMesh.lt
  obtain ⟨cm, hcm, hexact⟩ :=
    CellCache.cell_values.2 _ _ _ 0 hm hc Tetrahedron.nondegenerate_unitMesh
  obtain ⟨cm', hcm', hstored, hrefused, -⟩ := CellCache.cell_values.1 _ _ _ 0 hm hc
  obtain rfl : cm = cm' := Except.ok.inj (hcm.symm.trans hcm')
  have hcovers : Tetrahedron.unitMesh.CoversVertices 0 ([1, 2, 3, 4] : List ℝ) 1 := by
    intro v hv
    have hlt := Tetrahedron.mem_cellVertices.1 hv
    simp only [List.length_cons, List.length_nil]
    omega
  obtain ⟨value, -, hvalue, hbulk⟩ :=
    hexact ⟨.vertex, .array ⟨[1, 2, 3, 4], 1, .vertex, none⟩⟩ 0 ⟨Nat.le_refl 1, hcovers⟩
  have hputs := hbulk ⟨Tetrahedron.unitMesh.toMeshTables, .default, .sequential⟩ .bary
    ⟨rfl, rfl, Schedule.valid_sequential⟩
  have hfits : Selection.Fits 1 ([7, 7] : Buffer ℝ) (.compact [0, 0]) := by
    intro k hk
    rw [Nat.one_mul]
    exact Selection.mem_targets_compact.1 hk
  obtain ⟨out, hout⟩ := hputs.exists_eq_ok (.compact [0, 0]) [7, 7] (by decide)
    (by simpa [Selection.entities] using ⟨hc, Nat.le_refl 1, hcovers⟩) hfits
  exact ⟨cm, value, out, hcm, hvalue [7, 7] (by decide), hout,
    hputs.slot_eq _ _ _ hout 1 (by decide) rfl 1 rfl,
    hstored _ 5 ⟨Nat.le_refl 1, trivial⟩ trivial,
    (hrefused .face ⟨[1, 2, 3, 4], 1, .face, none⟩ 0 (by decide) (by decide) (by decide)).1⟩

end Polyfield
