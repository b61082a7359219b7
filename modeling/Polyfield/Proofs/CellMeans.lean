import Polyfield.Proofs.AffineQuadrature
import Polyfield.Proofs.CellPieces
import Polyfield.Proofs.Slots

/-!
# Means over a cell and over its faces

The mean of a function over a face or over a cell is its integral over the pieces, divided by the
measure.  A full cache computes it from what it holds, one entity at a time or in one pass over the
cell and its faces, in any arithmetic.

* `CellCache.integrateCellAndFaces_ofTables` : the integrals over a cell and over its faces in one
  pass are those over its pieces and over the triangles of the faces;
* `CellCache.averageFunctionOnAll_ofTables` : so the averages of a function in one pass are its
  means over the faces, followed by that over the cell;
* `CellCache.faceAverage_ofTables`, `CellCache.cellAverage_ofTables`,
  `CellCache.allAverages_ofTables` : the averages of a quantity.
-/

namespace Polyfield

/-! ## Integrals in mesh numbers -/

namespace MeshTables

variable {R : Type}

/-- The mesh number of a face of a cell. -/
def faceAt (m : MeshTables R) (c k : Nat) : Nat := (m.cellFaces.getD c []).getD k 0

theorem getElem?_faceAt {m : MeshTables R} {c k : Nat} (h : k < (m.cellFaces.getD c []).length) :
    (m.cellFaces.getD c [])[k]? = some (m.faceAt c k) := by
  rw [faceAt, List.getD_eq_getElem _ _ h, List.getElem?_eq_getElem h]

/-- The faces of a cell in order. -/
theorem map_faceAt (m : MeshTables R) (c : Nat) :
    (List.range (m.cellFaces.getD c []).length).map (m.faceAt c) = m.cellFaces.getD c [] := by
  refine List.ext_getElem (by simp) fun k _ hk => ?_
  rw [List.getElem_map, List.getElem_range, faceAt, List.getD_eq_getElem _ _ hk]

end MeshTables

namespace CellCache

variable {R : Type} [Scalar R] {m : MeshTables R} {c : Nat} {t : R} {f : SpaceTimeFunction R}

/-- A full cache holds whatever is read. -/
theorem requires_ofTables (m : MeshTables R) (c : Nat) (ks : List Capability) :
    (ofTables m c .all).requires ks = .ok () :=
  requires_eq_ok.2 fun j _ => CapabilitySet.contains_all j

theorem integrateFace_ofTables (h : m.Consistent c) {k face : Nat}
    (hk : (m.cellFaces.getD c [])[k]? = some face) {rule : SimplexRule R 3} {buf : Buffer R}
    (hbuf : f.dim ≤ buf.length) : (ofTables m c .all).integrateFace k t f rule buf =
      rule.integrateAll t (m.triangles face) f buf := by
  rw [integrateFace, requires_ofTables, ok_bind,
    facePieces_ofTables h (fun j _ => CapabilitySet.contains_all j) hk]
  exact if_neg (Nat.not_lt.2 hbuf)

theorem integrateCell_ofTables (h : m.Consistent c) {rule : SimplexRule R 4} {buf : Buffer R}
    (hbuf : f.dim ≤ buf.length) : (ofTables m c .all).integrateCell t f rule buf =
      rule.integrateAll t (m.pieces c) f buf := by
  rw [integrateCell, requires_ofTables, ok_bind,
    cellPieces_ofTables h (fun j _ => CapabilitySet.contains_all j) (CapabilitySet.contains_all _)]
  exact if_neg (Nat.not_lt.2 hbuf)

/-- **The integrals over a cell and over its faces**, as one pass computes them. -/
theorem integrateCellAndFaces_ofTables (h : m.Consistent c)
    (htri : m.shape c = .tetra → ∀ face ∈ m.cellFaces.getD c [],
      (m.faceEdges.getD face []).length = 3)
    (hdim : SimplexRule.requireDim f.dim = .ok ()) (tetraRule : SimplexRule R 4)
    (triangleRule : SimplexRule R 3) {cellBuf faceBuf : Buffer R}
    (hcell : f.dim ≤ cellBuf.length)
    (hface : f.dim * (m.cellFaces.getD c []).length ≤ faceBuf.length) :
    (ofTables m c .all).integrateCellAndFaces t f tetraRule triangleRule cellBuf faceBuf =
      (do
        return ((m.pieces c).foldl (tetraRule.addIntegral t f) cellBuf,
          ← Selection.fillSlots f.dim
            (fun k => triangleRule.integrateAll t (m.triangles (m.faceAt c k)) f)
            (List.range (m.cellFaces.getD c []).length) faceBuf)) := by
  have hall : ∀ j, CapabilitySet.all.contains j = true := CapabilitySet.contains_all
  have hshape : (ofTables m c .all).shape = m.shape c := rfl
  have hk : ∀ k ∈ List.range (m.cellFaces.getD c []).length,
      (m.cellFaces.getD c [])[k]? = some (m.faceAt c k) := fun k hk =>
    MeshTables.getElem?_faceAt (List.mem_range.1 hk)
  have hslots := Selection.foldlM_updateSlot_range
    (f := fun k => triangleRule.integrateAll t (m.triangles (m.faceAt c k)) f)
    (fun k s out hs => by
      rw [SimplexRule.integrateAll_eq_ok hdim] at hs
      rw [← Except.ok.inj hs, SimplexRule.length_foldl_addIntegral]) _ hface
  rw [integrateCellAndFaces, requires_ofTables, ok_bind, faceCount_ofTables (hall _), hshape,
    ← hslots]
  refine (if_neg (by omega)).trans ?_
  rw [MeshTables.pieces]
  by_cases htetra : m.shape c = .tetra
  · have h4 := MeshTables.length_of_shape_eq_tetra htetra
    have hstep : ∀ out, ∀ k ∈ List.range (m.cellFaces.getD c []).length,
        (do addFaceIntegral t f triangleRule k [← (ofTables m c .all).faceTriangle k] out) =
          updateSlot (f.dim * k) f.dim (triangleRule.integrateAll t
            (m.triangles (m.faceAt c k)) f) out := by
      intro out k hmem
      obtain ⟨e₀, e₁, e₂, hedges⟩ := List.length_eq_three.1
        (htri htetra _ (List.mem_of_getElem? (hk k hmem)))
      rw [faceTriangle_ofTables h (fun j _ => hall j) (hk k hmem) hedges,
        MeshTables.triangles_of_three hedges]
      rfl
    rw [if_pos htetra, if_pos htetra, wholeTetra_ofTables (hall _) h4, ok_bind,
      SimplexRule.integrate_eq_ok hdim, ok_bind, foldlM_congr hstep]
    rfl
  · have hstep : ∀ (out : Buffer R × Buffer R),
        ∀ k ∈ List.range (m.cellFaces.getD c []).length,
        (do
          let triangles ← (ofTables m c .all).facePieces k
          let cellOut ← tetraRule.integrateAll t (← (ofTables m c .all).conePieces k) f out.1
          return (cellOut, ← addFaceIntegral t f triangleRule k triangles out.2)) =
        (do
          return ((m.cones c (m.faceAt c k)).foldl (tetraRule.addIntegral t f)
            out.1, ← updateSlot (f.dim * k) f.dim (triangleRule.integrateAll t
              (m.triangles (m.faceAt c k)) f) out.2)) := by
      intro out k hmem
      rw [facePieces_ofTables h (fun j _ => hall j) (hk k hmem), ok_bind,
        conePieces_ofTables h (fun j _ => hall j) (hk k hmem), ok_bind,
        SimplexRule.integrateAll_eq_ok hdim, ok_bind]
      rfl
    have hprod := foldlM_prod (ε := Breach)
      (fun out k => (m.cones c (m.faceAt c k)).foldl (tetraRule.addIntegral t f) out)
      (fun out k => updateSlot (f.dim * k) f.dim
        (triangleRule.integrateAll t (m.triangles (m.faceAt c k)) f) out)
      (List.range (m.cellFaces.getD c []).length) cellBuf faceBuf
    rw [if_neg htetra, if_neg htetra, ← MeshTables.map_faceAt m c, List.flatMap_map,
      List.foldl_flatMap, MeshTables.map_faceAt]
    exact (foldlM_congr hstep _).trans hprod

end CellCache

/-! ## Means of a function -/

variable {R : Type} [Scalar R]

namespace MeshTables

/-- The integral of a function over a face, divided by its area. -/
def faceMean (m : MeshTables R) (t : R) (f : SpaceTimeFunction R) (rule : SimplexRule R 3)
    (face : Nat) : List R :=
  scale (1 / (m.face face).measure)
    ((m.triangles face).foldl (rule.addIntegral t f) (List.replicate f.dim 0))

/-- The integral of a function over a cell, divided by its volume. -/
def cellMean (m : MeshTables R) (c : Nat) (t : R) (f : SpaceTimeFunction R)
    (rule : SimplexRule R 4) : List R :=
  scale (1 / m.cellVolumes.getD c 0)
    ((m.pieces c).foldl (rule.addIntegral t f) (List.replicate f.dim 0))

end MeshTables

namespace CellCache

variable {m : MeshTables R} {c : Nat} {t : R} {f : SpaceTimeFunction R}

theorem averageFunctionOnFace_ofTables (h : m.Consistent c)
    (hdim : SimplexRule.requireDim f.dim = .ok ()) {k face : Nat}
    (hk : (m.cellFaces.getD c [])[k]? = some face) (rule : SimplexRule R 3) {slot : Buffer R}
    (hslot : slot.length = f.dim) :
    (ofTables m c .all).averageFunctionOnFace k t f rule slot = .ok (m.faceMean t f rule face) := by
  rw [averageFunctionOnFace, List.map_const', hslot,
    integrateFace_ofTables h hk (by rw [List.length_replicate]),
    SimplexRule.integrateAll_eq_ok hdim, ok_bind,
    fetch_faces_ofTables (CapabilitySet.contains_all _) hk]
  rfl

theorem averageFunctionOnCell_ofTables (h : m.Consistent c)
    (hdim : SimplexRule.requireDim f.dim = .ok ()) (rule : SimplexRule R 4) {slot : Buffer R}
    (hslot : slot.length = f.dim) :
    (ofTables m c .all).averageFunctionOnCell t f rule slot = .ok (m.cellMean c t f rule) := by
  rw [averageFunctionOnCell, List.map_const', hslot,
    integrateCell_ofTables h (by rw [List.length_replicate]),
    SimplexRule.integrateAll_eq_ok hdim]
  rfl

/-- **The averages of a function in one pass** are the separate ones, one after the other. -/
theorem averageFunctionOnAll_ofTables (h : m.Consistent c)
    (htri : m.shape c = .tetra → ∀ face ∈ m.cellFaces.getD c [],
      (m.faceEdges.getD face []).length = 3)
    (hdim : SimplexRule.requireDim f.dim = .ok ()) (tetraRule : SimplexRule R 4)
    (triangleRule : SimplexRule R 3) {slot : Buffer R}
    (hslot : slot.length = f.dim * ((m.cellFaces.getD c []).length + 1)) :
    (ofTables m c .all).averageFunctionOnAll t f tetraRule triangleRule slot =
      .ok ((m.cellFaces.getD c []).flatMap (m.faceMean t f triangleRule) ++
        m.cellMean c t f tetraRule) := by
  set zero : Buffer R := List.replicate f.dim 0 with hzero
  set count := (m.cellFaces.getD c []).length with hcount
  set integral : Nat → Buffer R := fun face =>
    (m.triangles face).foldl (triangleRule.addIntegral t f) zero
  have hzeros : slot.map (fun _ => (0 : R)) = List.replicate (f.dim * count + f.dim) 0 := by
    rw [List.map_const', hslot, Nat.mul_succ]
  have hdrop : (slot.map fun _ => (0 : R)).drop (f.dim * count) = zero := by
    rw [hzeros, List.drop_replicate, Nat.add_sub_cancel_left]
  have htake : (slot.map fun _ => (0 : R)).take (f.dim * count) =
      List.replicate (f.dim * count) 0 := by
    rw [hzeros, List.take_replicate, Nat.min_eq_left (Nat.le_add_right _ _)]
  have hfaces : (List.range count).map (fun k => integral (m.faceAt c k)) =
      (m.cellFaces.getD c []).map integral := by
    have hmap := congrArg (List.map integral) (m.map_faceAt c)
    rwa [List.map_map] at hmap
  -- every slot is filled from zero
  have hstep : ∀ k s, triangleRule.integrateAll t (m.triangles (m.faceAt c k)) f s =
      .ok ((m.triangles (m.faceAt c k)).foldl (triangleRule.addIntegral t f) s) :=
    fun k s => SimplexRule.integrateAll_eq_ok hdim _ s
  have hfill := Selection.fillSlots_eq_ok_of_steps f.dim hstep
    (List.range count) (List.replicate (f.dim * count) 0)
  have hzip : List.zipWith (fun k s =>
      (m.triangles (m.faceAt c k)).foldl (triangleRule.addIntegral t f) s) (List.range count)
        (List.replicate count zero) = (m.cellFaces.getD c []).map integral := by
    rw [← hfaces]
    exact List.ext_getElem (by simp) fun k _ _ => by simp [integral]
  rw [List.length_range, blocks_replicate, List.drop_replicate, Nat.sub_self,
    List.replicate_zero, List.append_nil, ← hzero, hzip] at hfill
  have hlength : ∀ v ∈ (m.cellFaces.getD c []).map integral, v.length = f.dim := by
    intro v hv
    obtain ⟨face, -, rfl⟩ := List.mem_map.1 hv
    rw [SimplexRule.length_foldl_addIntegral, hzero, List.length_replicate]
  have hblocks := blocks_flatten hlength
  rw [List.length_map, ← hcount] at hblocks
  have hfaceCount : (ofTables m c .all).faceCount = count :=
    faceCount_ofTables (CapabilitySet.contains_all _)
  simp only [averageFunctionOnAll, hfaceCount, hdrop, htake]
  rw [integrateCellAndFaces_ofTables h htri hdim tetraRule triangleRule
    (by rw [hzero, List.length_replicate]) (by rw [List.length_replicate]), hfill, ok_bind,
    pure_eq_ok, ok_bind, pure_eq_ok, hblocks, faces_ofTables (CapabilitySet.contains_all _),
    List.zipWith_map, List.zipWith_self, List.flatMap_def]
  rfl

end CellCache

/-! ## Means of a quantity -/

namespace Source

/-- Constants, and functions of as many components as can be integrated. -/
def HasMeans : Source R → Prop
  | .constant _ => True
  | .function f => f.dim = 1 ∨ f.dim = 3 ∨ f.dim = 9
  | .array _ | .field _ => False

/-- The average over a face at a level. -/
def faceMean (m : MeshTables R) (t : R) (level : Level) (face : Nat) : Source R → List R
  | .constant v => v.components
  | .function f => m.faceMean t f (.triangle level) face
  | .array _ | .field _ => []

/-- The average over a cell at a level. -/
def cellMean (m : MeshTables R) (c : Nat) (t : R) (level : Level) : Source R → List R
  | .constant v => v.components
  | .function f => m.cellMean c t f (.tetra level)
  | .array _ | .field _ => []

theorem length_faceMean (m : MeshTables R) (t : R) (level : Level) (face : Nat) {s : Source R}
    (hs : s.HasMeans) : (s.faceMean m t level face).length = s.dim := by
  cases s with
  | constant v => exact v.length_components
  | function f =>
    simp [faceMean, MeshTables.faceMean, scale, SimplexRule.length_foldl_addIntegral, dim]
  | array a => exact hs.elim
  | field a => exact hs.elim

theorem length_cellMean (m : MeshTables R) (c : Nat) (t : R) (level : Level) {s : Source R}
    (hs : s.HasMeans) : (s.cellMean m c t level).length = s.dim := by
  cases s with
  | constant v => exact v.length_components
  | function f =>
    simp [cellMean, MeshTables.cellMean, scale, SimplexRule.length_foldl_addIntegral, dim]
  | array a => exact hs.elim
  | field a => exact hs.elim

end Source

namespace CellCache

variable {m : MeshTables R} {c : Nat} {t : R} {q : Quantity R}

theorem faceAverage_ofTables (h : m.Consistent c) (hq : q.source.HasMeans) (level : Level)
    {k face : Nat} (hk : (m.cellFaces.getD c [])[k]? = some face) {buf : Buffer R}
    (hbuf : q.dim ≤ buf.length) : (ofTables m c .all).faceAverage q k t level buf =
      .ok () (q.source.faceMean m t level face ++ buf.drop q.dim) := by
  obtain ⟨support, source⟩ := q
  cases source with
  | constant v => exact Fill.ofUpdate_eq_ok.2 (Value.writeTo_eq_ok hbuf)
  | function f =>
    refine (Fill.lift_bind (SimplexRule.triangleFor_eq_ok level hq) _ buf).trans ?_
    exact Fill.ofUpdate_eq_ok.2 (updateFirst_eq_ok.2 ⟨hbuf, _, averageFunctionOnFace_ofTables h
      (SimplexRule.requireDim_eq_ok hq) hk _ (List.length_take_of_le hbuf), rfl⟩)
  | array a => exact hq.elim
  | field a => exact hq.elim

theorem cellAverage_ofTables (h : m.Consistent c) (hq : q.source.HasMeans) (level : Level)
    {buf : Buffer R} (hbuf : q.dim ≤ buf.length) :
    (ofTables m c .all).cellAverage q t level buf =
      .ok () (q.source.cellMean m c t level ++ buf.drop q.dim) := by
  obtain ⟨support, source⟩ := q
  cases source with
  | constant v => exact Fill.ofUpdate_eq_ok.2 (Value.writeTo_eq_ok hbuf)
  | function f =>
    refine (Fill.lift_bind (SimplexRule.tetraFor_eq_ok level hq) _ buf).trans ?_
    exact Fill.ofUpdate_eq_ok.2 (updateFirst_eq_ok.2 ⟨hbuf, _, averageFunctionOnCell_ofTables h
      (SimplexRule.requireDim_eq_ok hq) _ (List.length_take_of_le hbuf), rfl⟩)
  | array a => exact hq.elim
  | field a => exact hq.elim

/-- The means of a constant: one for each face that the cache lists, and one for the cell. -/
theorem allAverages_constant (cm : CellCache R) {v : Value R} (hq : q.source = .constant v)
    (t : R) (level : Level) {buf : Buffer R} (hbuf : v.dim * (cm.faceCount + 1) ≤ buf.length) :
    cm.allAverages q t level buf =
      .ok () ((List.replicate (cm.faceCount + 1) v.components).flatten ++
        buf.drop (v.dim * (cm.faceCount + 1))) := by
  unfold allAverages
  rw [hq]
  show Fill.ofUpdate (fun buf => (Selection.all (cm.faceCount + 1)).forEach v.dim
    (fun _ slot => v.writeTo slot) buf) buf = _
  rw [Fill.ofUpdate_eq_ok, Selection.forEach_all_eq_ok (Selection.writes_writeTo v)]
  refine ⟨hbuf, v.dim_pos.ne', _, mapM_eq_map fun _ _ => rfl, ?_⟩
  rw [List.map_const', List.length_range]

theorem allAverages_ofTables (h : m.Consistent c)
    (htri : m.shape c = .tetra → ∀ face ∈ m.cellFaces.getD c [],
      (m.faceEdges.getD face []).length = 3)
    (hq : q.source.HasMeans) (level : Level) {buf : Buffer R}
    (hbuf : q.dim * ((m.cellFaces.getD c []).length + 1) ≤ buf.length) :
    (ofTables m c .all).allAverages q t level buf =
      .ok () ((m.cellFaces.getD c []).flatMap (q.source.faceMean m t level ·) ++
        q.source.cellMean m c t level ++
        buf.drop (q.dim * ((m.cellFaces.getD c []).length + 1))) := by
  have hcount : (ofTables m c .all).faceCount = (m.cellFaces.getD c []).length :=
    faceCount_ofTables (CapabilitySet.contains_all _)
  obtain ⟨support, source⟩ := q
  cases source with
  | constant v =>
    rw [allAverages_constant _ rfl _ _ (by rw [hcount]; exact hbuf), hcount,
      List.replicate_succ', List.flatten_concat]
    refine congrArg (fun front => EStateM.Result.ok () (front ++ v.components ++ _)) ?_
    rw [← List.map_const', ← List.flatMap_def]
    rfl
  | function f =>
    refine (Fill.lift_bind (SimplexRule.tetraFor_eq_ok level hq) _ buf).trans ?_
    refine (Fill.lift_bind (SimplexRule.triangleFor_eq_ok level hq) _ buf).trans ?_
    refine Fill.ofUpdate_eq_ok.2 ?_
    rw [requires_ofTables, ok_bind, hcount]
    exact updateFirst_eq_ok.2 ⟨hbuf, _, averageFunctionOnAll_ofTables h htri
      (SimplexRule.requireDim_eq_ok hq) _ _ (List.length_take_of_le hbuf), rfl⟩
  | array a => exact hq.elim
  | field a => exact hq.elim

end CellCache

end Polyfield
