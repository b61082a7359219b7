import Mathlib.Algebra.BigOperators.Group.List.Lemmas
import Mathlib.Algebra.GroupWithZero.Nat
import Polyfield.Cell.Integral
import Polyfield.Proofs.CacheFilling
import Polyfield.Proofs.TableReads

/-!
# The cache of a cell of consistent tables

Where the tables of a cell are consistent, filling a cache does not fail, and the cache is a
function of the tables: `CellCache.ofTables`.

* `CellCache.build_eq_ofTables` : for every set of capabilities that is closed under their
  dependencies, the new cache is that one;
* `CellCache.edgePoints_ofTables`, `CellCache.faceEdges_ofTables`,
  `CellCache.faceTriangleAreas_ofTables` : what is read from it in local numbers is what the
  tables say in mesh numbers.
-/

namespace Polyfield

/-! ## Closed sets of capabilities -/

namespace CapabilitySet

/-- A set that holds with a capability all that it needs. -/
def Closed (s : CapabilitySet) : Prop :=
  ∀ k, s.contains k = true → ∀ j ∈ k.closure, s.contains j = true

theorem closed_insert {s : CapabilitySet} (h : s.Closed) (k : Capability) :
    (s.insert k).Closed := by
  intro i hi j hj
  rw [contains_insert, Bool.or_eq_true, decide_eq_true_eq] at hi ⊢
  rcases hi with hi | hi
  · exact .inl (h i hi j hj)
  · exact .inr (Capability.closure_subset_of_mem hi j hj)

/-- The set of some capabilities and all that they need is closed. -/
theorem closed_ofList (ks : List Capability) : (ofList ks).Closed := by
  have hfold : ∀ (ks : List Capability) (s : CapabilitySet), s.Closed →
      (ks.foldl insert s).Closed := by
    intro ks
    induction ks with
    | nil => exact fun s hs => hs
    | cons k ks ih => exact fun s hs => ih _ (closed_insert hs k)
  refine hfold ks empty fun k hk => ?_
  rw [contains_empty] at hk
  cases hk

end CapabilitySet

/-! ## Positions -/

theorem idxOf?_eq_some_of_mem {xs : List Nat} {a : Nat} (h : a ∈ xs) :
    xs.idxOf? a = some (xs.idxOf a) := by
  induction xs with
  | nil => simp at h
  | cons x xs ih =>
    rw [List.idxOf?_cons]
    by_cases hx : x = a
    · simp [hx]
    · have hmem : a ∈ xs := (List.mem_cons.1 h).resolve_left fun h => hx h.symm
      simp [hx, ih hmem, List.idxOf_cons_ne _ hx]

theorem if_neg_of_eq_false {α : Type} {b : Bool} {x y : α} (h : b = false) :
    (if b then x else y) = y :=
  if_neg (by simp [h])

namespace CellCache

theorem fetch_offsetsFrom {ns : List Nat} {k : Nat} (h : k ≤ ns.length) (s : Nat) :
    fetch (offsetsFrom s ns) k = .ok (s + (ns.take k).sum) := by
  rw [fetch_eq_ok]
  induction ns generalizing k s with
  | nil =>
    obtain rfl : k = 0 := Nat.le_zero.1 h
    rfl
  | cons n ns ih =>
    cases k with
    | zero => rfl
    | succ k =>
      rw [offsetsFrom, List.getElem?_cons_succ, ih (Nat.le_of_succ_le_succ h), List.take_succ_cons,
        List.sum_cons, Nat.add_assoc]

/-- **The part of a face in the list of all faces.** -/
theorem slice_flatten {α : Type} {xss : List (List α)} {k : Nat} {xs : List α}
    (h : xss[k]? = some xs) :
    (do
      slice xss.flatten (← fetch (offsetsFrom 0 (xss.map List.length)) k)
        (← fetch (offsetsFrom 0 (xss.map List.length)) (k + 1))) = .ok xs := by
  obtain ⟨hk, rfl⟩ := List.getElem?_eq_some_iff.1 h
  have hk' : k + 1 ≤ (xss.map List.length).length := by rwa [List.length_map]
  rw [fetch_offsetsFrom (by omega), fetch_offsetsFrom hk', ok_bind, ok_bind, slice_eq_ok,
    Nat.zero_add, Nat.zero_add]
  refine ⟨?_, ?_, ?_⟩
  · rw [List.sum_take_succ _ k hk']
    omega
  · have hsum := List.sum_take_add_sum_drop (xss.map List.length) (k + 1)
    rw [List.length_flatten]
    omega
  · rw [← List.drop_take, List.drop_take_succ_flatten_eq_getElem xss k hk]

end CellCache

/-! ## The contents of a cache -/

variable {R : Type} [Scalar R]

namespace MeshTables

/-- The geometry of an edge. -/
def segment (m : MeshTables R) (e : Nat) : EntityGeometry R :=
  .ofSegment (m.point (m.ends e).1) (m.point (m.ends e).2)

/-- The area of the triangle between an edge and the center of a face. -/
def sideArea (m : MeshTables R) (f e : Nat) : R :=
  triangleArea (m.point (m.ends e).1) (m.point (m.ends e).2) (m.face f).center

omit [Scalar R] in
/-- The position of an edge among the edges of a cell. -/
def edgePosition (m : MeshTables R) (c e : Nat) : Nat := (m.cellEdges.getD c []).idxOf e

omit [Scalar R] in
/-- The positions of the ends of an edge among the vertices of a cell. -/
def endPositions (m : MeshTables R) (c e : Nat) : Nat × Nat :=
  ((m.cellVertices.getD c []).idxOf (m.ends e).1, (m.cellVertices.getD c []).idxOf (m.ends e).2)

end MeshTables

namespace CellCache

/-- The cache of a cell of consistent tables. -/
def ofTables (m : MeshTables R) (c : Nat) (ks : CapabilitySet) : CellCache R where
  capabilities := ks
  cell := c
  shape := .ofCounts (m.cellVertices.getD c []).length (m.cellEdges.getD c []).length
    (m.cellFaces.getD c []).length
  center := m.cellCenters.getD c 0
  volume := m.cellVolumes.getD c 0
  vertexIds := if ks.contains .vertexIds then m.cellVertices.getD c [] else []
  vertexPoints := if ks.contains .vertexGeometry then m.pointsOfCell c else []
  vertexWeights := if ks.contains .vertexGeometry then
    (m.cellDualVolumes.getD c []).map (· * (1 / m.cellVolumes.getD c 0)) else []
  edgeIds := if ks.contains .edgeIds then m.cellEdges.getD c [] else []
  edges := if ks.contains .edgeGeometry then (m.cellEdges.getD c []).map m.segment else []
  edgeVertices := if ks.contains .edgeVertices then
    (m.cellEdges.getD c []).map (m.endPositions c) else []
  faceIds := if ks.contains .faceIds then m.cellFaces.getD c [] else []
  faceSigns := if ks.contains .faceIds then m.cellFaceSigns.getD c [] else []
  faces := if ks.contains .faceGeometry then (m.cellFaces.getD c []).map m.face else []
  faceHeights := if ks.contains .faceHeights then
    (m.cellFaces.getD c []).map fun f =>
      Scalar.abs ((m.face f).unit.dot ((m.face f).center - m.cellCenters.getD c 0)) else []
  faceStarts := if ks.contains .faceEdges then
    offsetsFrom 0 ((m.cellFaces.getD c []).map fun f => (m.faceEdges.getD f []).length) else []
  faceEdgeIds := if ks.contains .faceEdges then
    (m.cellFaces.getD c []).flatMap fun f => (m.faceEdges.getD f []).map (m.edgePosition c) else []
  triangleAreas := if ks.contains .faceTriangles then
    (m.cellFaces.getD c []).flatMap fun f => (m.faceEdges.getD f []).map (m.sideArea f) else []

variable {m : MeshTables R} {c : Nat} {ks : CapabilitySet}

section Fields

theorem vertexIds_ofTables (hk : ks.contains .vertexIds = true) :
    (ofTables m c ks).vertexIds = m.cellVertices.getD c [] := if_pos hk

theorem vertexPoints_ofTables (hk : ks.contains .vertexGeometry = true) :
    (ofTables m c ks).vertexPoints = m.pointsOfCell c := if_pos hk

theorem vertexWeights_ofTables (hk : ks.contains .vertexGeometry = true) :
    (ofTables m c ks).vertexWeights =
      (m.cellDualVolumes.getD c []).map (· * (1 / m.cellVolumes.getD c 0)) := if_pos hk

theorem edgeIds_ofTables (hk : ks.contains .edgeIds = true) :
    (ofTables m c ks).edgeIds = m.cellEdges.getD c [] := if_pos hk

theorem edges_ofTables (hk : ks.contains .edgeGeometry = true) :
    (ofTables m c ks).edges = (m.cellEdges.getD c []).map m.segment := if_pos hk

theorem edgeVertices_ofTables (hk : ks.contains .edgeVertices = true) :
    (ofTables m c ks).edgeVertices = (m.cellEdges.getD c []).map (m.endPositions c) := if_pos hk

theorem faceIds_ofTables (hk : ks.contains .faceIds = true) :
    (ofTables m c ks).faceIds = m.cellFaces.getD c [] := if_pos hk

theorem faceSigns_ofTables (hk : ks.contains .faceIds = true) :
    (ofTables m c ks).faceSigns = m.cellFaceSigns.getD c [] := if_pos hk

theorem faces_ofTables (hk : ks.contains .faceGeometry = true) :
    (ofTables m c ks).faces = (m.cellFaces.getD c []).map m.face := if_pos hk

theorem faceHeights_ofTables (hk : ks.contains .faceHeights = true) :
    (ofTables m c ks).faceHeights = (m.cellFaces.getD c []).map fun f =>
      Scalar.abs ((m.face f).unit.dot ((m.face f).center - m.cellCenters.getD c 0)) := if_pos hk

theorem faceStarts_ofTables (hk : ks.contains .faceEdges = true) :
    (ofTables m c ks).faceStarts = offsetsFrom 0
      ((m.cellFaces.getD c []).map fun f => (m.faceEdges.getD f []).length) := if_pos hk

theorem faceEdgeIds_ofTables (hk : ks.contains .faceEdges = true) :
    (ofTables m c ks).faceEdgeIds = (m.cellFaces.getD c []).flatMap fun f =>
      (m.faceEdges.getD f []).map (m.edgePosition c) := if_pos hk

theorem triangleAreas_ofTables (hk : ks.contains .faceTriangles = true) :
    (ofTables m c ks).triangleAreas = (m.cellFaces.getD c []).flatMap fun f =>
      (m.faceEdges.getD f []).map (m.sideArea f) := if_pos hk

theorem fetch_faces_ofTables (hfaces : ks.contains .faceGeometry = true) {k f : Nat}
    (hk : (m.cellFaces.getD c [])[k]? = some f) :
    fetch (ofTables m c ks).faces k = .ok (m.face f) := by
  rw [faces_ofTables hfaces, fetch_eq_ok, List.getElem?_map, hk]
  rfl

theorem fetch_faceHeights_ofTables (hheights : ks.contains .faceHeights = true) {k f : Nat}
    (hk : (m.cellFaces.getD c [])[k]? = some f) : fetch (ofTables m c ks).faceHeights k =
      .ok (Scalar.abs ((m.face f).unit.dot ((m.face f).center - m.cellCenters.getD c 0))) := by
  rw [faceHeights_ofTables hheights, fetch_eq_ok, List.getElem?_map, hk]
  rfl

end Fields

/-! ## Local numbers -/

theorem localVertex_ofTables (hids : ks.contains .vertexIds = true) {v : Nat}
    (hv : v ∈ m.cellVertices.getD c []) :
    (ofTables m c ks).localVertex v = .ok ((m.cellVertices.getD c []).idxOf v) := by
  simp only [localVertex, vertexIds_ofTables hids, idxOf?_eq_some_of_mem hv]

theorem localEdge_ofTables (hids : ks.contains .edgeIds = true) {e : Nat}
    (he : e ∈ m.cellEdges.getD c []) :
    (ofTables m c ks).localEdge e = .ok (m.edgePosition c e) := by
  simp only [localEdge, edgeIds_ofTables hids, idxOf?_eq_some_of_mem he, MeshTables.edgePosition]

theorem localEnds_ofTables (h : m.Consistent c) (hids : ks.contains .vertexIds = true) {e : Nat}
    (he : e ∈ m.cellEdges.getD c []) :
    (ofTables m c ks).localEnds m e = .ok (m.endPositions c e) := by
  have hends := h.ends_mem e he
  rw [localEnds, fetch_getD (h.edge_lt e he) (0, 0), ok_bind]
  show (do return (← (ofTables m c ks).localVertex (m.ends e).1,
    ← (ofTables m c ks).localVertex (m.ends e).2)) = _
  rw [localVertex_ofTables hids hends.1, localVertex_ofTables hids hends.2]
  rfl

/-- The ends of an edge in local numbers. -/
theorem fetch_edgeVertices_ofTables (hends : ks.contains .edgeVertices = true) {e : Nat}
    (he : e ∈ m.cellEdges.getD c []) :
    fetch (ofTables m c ks).edgeVertices (m.edgePosition c e) = .ok (m.endPositions c e) := by
  rw [edgeVertices_ofTables hends, fetch_eq_ok, List.getElem?_map, MeshTables.edgePosition,
    List.getElem?_idxOf he]
  rfl

/-- A vertex as a point, from its local number. -/
theorem fetch_vertexPoints_ofTables (hpoints : ks.contains .vertexGeometry = true) {v : Nat}
    (hv : v ∈ m.cellVertices.getD c []) :
    fetch (ofTables m c ks).vertexPoints ((m.cellVertices.getD c []).idxOf v) =
      .ok (m.point v) := by
  rw [vertexPoints_ofTables hpoints, fetch_eq_ok, MeshTables.pointsOfCell, List.getElem?_map,
    List.getElem?_idxOf hv]
  rfl

/-- The ends of an edge are the same points in local and in mesh numbers. -/
theorem edgePoints_ofTables (h : m.Consistent c) (hends : ks.contains .edgeVertices = true)
    (hpoints : ks.contains .vertexGeometry = true) {e : Nat}
    (he : e ∈ m.cellEdges.getD c []) :
    (ofTables m c ks).edgePoints (m.edgePosition c e) =
      .ok (m.point (m.ends e).1, m.point (m.ends e).2) := by
  have hmem := h.ends_mem e he
  simp only [edgePoints, fetch_edgeVertices_ofTables hends he, ok_bind, MeshTables.endPositions,
    fetch_vertexPoints_ofTables hpoints hmem.1, fetch_vertexPoints_ofTables hpoints hmem.2,
    pure_eq_ok]

/-- The edges of a face in local numbers. -/
theorem faceEdges_ofTables (hedges : ks.contains .faceEdges = true) {k f : Nat}
    (hk : (m.cellFaces.getD c [])[k]? = some f) :
    (ofTables m c ks).faceEdges k = .ok ((m.faceEdges.getD f []).map (m.edgePosition c)) := by
  have hxs : ((m.cellFaces.getD c []).map fun f =>
      (m.faceEdges.getD f []).map (m.edgePosition c))[k]? =
        some ((m.faceEdges.getD f []).map (m.edgePosition c)) := by
    rw [List.getElem?_map, hk]
    rfl
  have hslice := slice_flatten hxs
  simpa only [faceEdges, faceStarts_ofTables hedges, faceEdgeIds_ofTables hedges,
    List.flatMap_def, List.map_map, Function.comp_def, List.length_map] using hslice

/-- The triangles of a face. -/
theorem faceTriangleAreas_ofTables (hedges : ks.contains .faceEdges = true)
    (hareas : ks.contains .faceTriangles = true) {k f : Nat}
    (hk : (m.cellFaces.getD c [])[k]? = some f) :
    (ofTables m c ks).faceTriangleAreas k = .ok ((m.faceEdges.getD f []).map (m.sideArea f)) := by
  have hxs : ((m.cellFaces.getD c []).map fun f =>
      (m.faceEdges.getD f []).map (m.sideArea f))[k]? =
        some ((m.faceEdges.getD f []).map (m.sideArea f)) := by
    rw [List.getElem?_map, hk]
    rfl
  have hslice := slice_flatten hxs
  simpa only [faceTriangleAreas, faceStarts_ofTables hedges, triangleAreas_ofTables hareas,
    List.flatMap_def, List.map_map, Function.comp_def, List.length_map] using hslice

/-! ## Building -/

theorem computeTriangleAreas_ofTables (h : m.Consistent c)
    (hneeds : ∀ j ∈ Capability.faceTriangles.closure, ks.contains j = true) {k f : Nat}
    (hk : (m.cellFaces.getD c [])[k]? = some f) :
    (ofTables m c ks).computeTriangleAreas k =
      .ok ((m.faceEdges.getD f []).map (m.sideArea f)) := by
  have hf := List.mem_of_getElem? hk
  rw [computeTriangleAreas, fetch_faces_ofTables (hneeds _ (by decide)) hk,
    faceEdges_ofTables (hneeds _ (by decide)) hk, ok_bind, ok_bind, List.mapM_map]
  refine mapM_eq_map fun e he => ?_
  rw [Function.comp_apply, edgePoints_ofTables h (hneeds _ (by decide)) (hneeds _ (by decide))
    (h.faceEdges_mem f hf e he)]
  rfl

theorem localFaceEdges_ofTables (h : m.Consistent c) (hids : ks.contains .edgeIds = true) {f : Nat}
    (hf : f ∈ m.cellFaces.getD c []) : (ofTables m c ks).localFaceEdges m f =
      .ok ((m.faceEdges.getD f []).map (m.edgePosition c)) := by
  rw [localFaceEdges, fetch_getD (h.face_lt f hf).2.2.2 [], ok_bind]
  exact mapM_eq_map fun e he => localEdge_ofTables hids (h.faceEdges_mem f hf e he)

theorem edgeGeometry_eq_ok (h : m.Consistent c) {e : Nat} (he : e ∈ m.cellEdges.getD c []) :
    edgeGeometry m e = .ok (m.segment e) := by
  rw [edgeGeometry, h.edgePoints he]
  rfl

omit [Scalar R] in
theorem mapM_fetch_faceSigns (h : m.Consistent c) :
    (List.range (m.cellFaces.getD c []).length).mapM
      (fun k => do fetch (← fetch m.cellFaceSigns c) k) = .ok (m.cellFaceSigns.getD c []) := by
  rw [← h.length_signs]
  refine (mapM_range_eq_map fun k s hk => ?_).trans (congrArg Except.ok (List.map_id _))
  rw [fetch_getD h.signs_lt [], ok_bind, fetch_eq_ok, hk]
  rfl

theorem faceGeometry_eq_ok (h : m.Consistent c) {f : Nat} (hf : f ∈ m.cellFaces.getD c []) :
    faceGeometry m f = .ok (m.face f) := by
  obtain ⟨hcenter, hnormal, harea, -⟩ := h.face_lt f hf
  rw [faceGeometry, fetch_getD hcenter 0, fetch_getD hnormal 0, fetch_getD harea 0]
  rfl

/-- **Where the tables are consistent, filling a cache does not fail**, and its contents are those
of the tables. -/
theorem build_eq_ofTables (h : m.Consistent c) (hks : ks.Closed) :
    build m c ks = .ok (ofTables m c ks) := by
  refine build_eq_ok.2 ⟨rfl, {
    cell := rfl
    center := fetch_getD h.center_lt 0
    volume := fetch_getD h.volume_lt 0
    shape := ⟨_, fetch_getD h.vertices_lt [], _, fetch_getD h.edges_lt [], _,
      fetch_getD h.faces_lt [], rfl⟩
    vertexIds := ⟨fun (hk : ks.contains .vertexIds = true) => ?vertexIds, if_neg_of_eq_false⟩
    vertexGeometry := ⟨fun (hk : ks.contains .vertexGeometry = true) =>
        ⟨?vertexPoints, _, fetch_getD h.dualVolumes_lt [], if_pos hk⟩,
      fun hk => ⟨if_neg_of_eq_false hk, if_neg_of_eq_false hk⟩⟩
    edgeIds := ⟨fun (hk : ks.contains .edgeIds = true) => ?edgeIds, if_neg_of_eq_false⟩
    edgeVertices := ⟨fun (hk : ks.contains .edgeVertices = true) => ?edgeVertices,
      if_neg_of_eq_false⟩
    edges := ⟨fun (hk : ks.contains .edgeGeometry = true) => ?edges, if_neg_of_eq_false⟩
    faceIds := ⟨fun (hk : ks.contains .faceIds = true) => ⟨?faceIds, ?faceSigns⟩,
      fun hk => ⟨if_neg_of_eq_false hk, if_neg_of_eq_false hk⟩⟩
    faces := ⟨fun (hk : ks.contains .faceGeometry = true) => ?faces, if_neg_of_eq_false⟩
    faceHeights := ⟨fun (hk : ks.contains .faceHeights = true) => ?faceHeights,
      if_neg_of_eq_false⟩
    faceEdges := ⟨fun (hk : ks.contains .faceEdges = true) => ?faceEdges,
      fun hk => ⟨if_neg_of_eq_false hk, if_neg_of_eq_false hk⟩⟩
    triangleAreas := ⟨fun (hk : ks.contains .faceTriangles = true) => ?triangleAreas,
      if_neg_of_eq_false⟩ }⟩
  case vertexIds =>
    rw [vertexIds_ofTables hk]
    exact fetch_getD h.vertices_lt []
  case vertexPoints =>
    rw [vertexIds_ofTables (hks _ hk _ (by decide)), vertexPoints_ofTables hk]
    exact mapM_eq_map fun v hv => fetch_getD (h.vertex_lt v hv) 0
  case edgeIds =>
    rw [edgeIds_ofTables hk]
    exact fetch_getD h.edges_lt []
  case edgeVertices =>
    rw [edgeIds_ofTables (hks _ hk _ (by decide)), edgeVertices_ofTables hk]
    exact mapM_eq_map fun e he => localEnds_ofTables h (hks _ hk _ (by decide)) he
  case edges =>
    rw [edgeIds_ofTables (hks _ hk _ (by decide)), edges_ofTables hk]
    exact mapM_eq_map fun e he => edgeGeometry_eq_ok h he
  case faceIds =>
    rw [faceIds_ofTables hk]
    exact fetch_getD h.faces_lt []
  case faceSigns =>
    rw [faceIds_ofTables hk, faceSigns_ofTables hk]
    exact mapM_fetch_faceSigns h
  case faces =>
    rw [faceIds_ofTables (hks _ hk _ (by decide)), faces_ofTables hk]
    exact mapM_eq_map fun f hf => faceGeometry_eq_ok h hf
  case faceHeights =>
    rw [faces_ofTables (hks _ hk _ (by decide)), faceHeights_ofTables hk, List.map_map]
    rfl
  case faceEdges =>
    refine ⟨(m.cellFaces.getD c []).map fun f => (m.faceEdges.getD f []).map (m.edgePosition c),
      ?_, ?_, ?_⟩
    · rw [faceIds_ofTables (hks _ hk _ (by decide))]
      exact mapM_eq_map fun f hf => localFaceEdges_ofTables h (hks _ hk _ (by decide)) hf
    · rw [faceStarts_ofTables hk, List.map_map]
      simp only [Function.comp_def, List.length_map]
    · rw [faceEdgeIds_ofTables hk, List.flatMap_def]
  case triangleAreas =>
    refine ⟨(m.cellFaces.getD c []).map fun f => (m.faceEdges.getD f []).map (m.sideArea f),
      ?_, ?_⟩
    · rw [faceIds_ofTables (hks _ hk _ (by decide))]
      exact mapM_range_eq_map fun k f hkf => computeTriangleAreas_ofTables h (hks _ hk) hkf
    · rw [triangleAreas_ofTables hk, List.flatMap_def]

end CellCache

end Polyfield
