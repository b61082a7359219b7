import Polyfield.Cell.Cache
import Polyfield.Proofs.Success

/-!
# What a filled cell cache holds

Filling a cache is a chain of steps, one for each group of quantities, and every step writes
fields of its own.  `CellCache.Filled` says, group by group, what the fields are then: what the
step computes if the cache is to hold the group, and empty otherwise.

* `CellCache.build_eq_ok` : a new cache is built exactly if its fields can be filled so, and then
  they are.
-/

namespace Polyfield

variable {R : Type} [Scalar R]

namespace CellCache

omit [Scalar R] in
theorem requires_eq_ok {cm : CellCache R} {ks : List Capability} :
    cm.requires ks = .ok () ↔ ∀ k ∈ ks, cm.has k = true := by
  induction ks with
  | nil => simp [requires]
  | cons k ks ih =>
    rw [requires, List.forall_mem_cons, ← ih]
    cases cm.has k <;> simp

/-- A group of quantities is filled in, or left out. -/
structure Group (has : Bool) (filled leftOut : Prop) : Prop where
  of_has : has = true → filled
  of_not_has : has = false → leftOut

/-- The ends of an edge, as positions among the vertices of a cell. -/
def localEnds (cm : CellCache R) (m : MeshTables R) (e : Nat) : Except Breach (Nat × Nat) := do
  let (a, b) ← fetch m.edges e
  return (← cm.localVertex a, ← cm.localVertex b)

/-- The geometry of an edge. -/
def edgeGeometry (m : MeshTables R) (e : Nat) : Except Breach (EntityGeometry R) := do
  let (a, b) ← m.edgePoints e
  return EntityGeometry.ofSegment a b

/-- The geometry of a face. -/
def faceGeometry (m : MeshTables R) (f : Nat) : Except Breach (EntityGeometry R) := do
  return EntityGeometry.mk (← fetch m.faceCenters f) (← fetch m.faceNormals f)
    (← fetch m.faceAreas f)

/-- The edges of a face, as positions among the edges of a cell. -/
def localFaceEdges (cm : CellCache R) (m : MeshTables R) (f : Nat) : Except Breach (List Nat) := do
  (← fetch m.faceEdges f).mapM cm.localEdge

/-- The areas of the triangles between the edges of a face and its center. -/
def computeTriangleAreas (cm : CellCache R) (f : Nat) : Except Breach (List R) := do
  let face ← fetch cm.faces f
  (← cm.faceEdges f).mapM fun e => do
    let (a, b) ← cm.edgePoints e
    return triangleArea a b face.center

/-- The fields of a cache that was filled for a cell. -/
structure Filled (cm : CellCache R) (m : MeshTables R) (c : Nat) : Prop where
  cell : cm.cell = c
  center : fetch m.cellCenters c = .ok cm.center
  volume : fetch m.cellVolumes c = .ok cm.volume
  shape : ∃ vs, fetch m.cellVertices c = .ok vs ∧ ∃ es, fetch m.cellEdges c = .ok es ∧
    ∃ fs, fetch m.cellFaces c = .ok fs ∧ cm.shape = .ofCounts vs.length es.length fs.length
  vertexIds : Group (cm.has .vertexIds) (fetch m.cellVertices c = .ok cm.vertexIds)
    (cm.vertexIds = [])
  vertexGeometry : Group (cm.has .vertexGeometry)
    (cm.vertexIds.mapM (fetch m.vertexPoints ·) = .ok cm.vertexPoints ∧
      ∃ volumes, fetch m.cellDualVolumes c = .ok volumes ∧
        cm.vertexWeights = volumes.map (· * (1 / cm.volume)))
    (cm.vertexPoints = [] ∧ cm.vertexWeights = [])
  edgeIds : Group (cm.has .edgeIds) (fetch m.cellEdges c = .ok cm.edgeIds) (cm.edgeIds = [])
  edgeVertices : Group (cm.has .edgeVertices)
    (cm.edgeIds.mapM (cm.localEnds m) = .ok cm.edgeVertices) (cm.edgeVertices = [])
  edges : Group (cm.has .edgeGeometry) (cm.edgeIds.mapM (edgeGeometry m) = .ok cm.edges)
    (cm.edges = [])
  faceIds : Group (cm.has .faceIds)
    (fetch m.cellFaces c = .ok cm.faceIds ∧ (List.range cm.faceIds.length).mapM (fun k => do
      fetch (← fetch m.cellFaceSigns c) k) = .ok cm.faceSigns)
    (cm.faceIds = [] ∧ cm.faceSigns = [])
  faces : Group (cm.has .faceGeometry) (cm.faceIds.mapM (faceGeometry m) = .ok cm.faces)
    (cm.faces = [])
  faceHeights : Group (cm.has .faceHeights)
    (cm.faceHeights = cm.faces.map fun face =>
      Scalar.abs (face.unit.dot (face.center - cm.center)))
    (cm.faceHeights = [])
  faceEdges : Group (cm.has .faceEdges)
    (∃ edges, cm.faceIds.mapM (cm.localFaceEdges m) = .ok edges ∧
      cm.faceStarts = offsetsFrom 0 (edges.map List.length) ∧ cm.faceEdgeIds = edges.flatten)
    (cm.faceStarts = [] ∧ cm.faceEdgeIds = [])
  triangleAreas : Group (cm.has .faceTriangles)
    (∃ areas, (List.range cm.faceIds.length).mapM cm.computeTriangleAreas = .ok areas ∧
      cm.triangleAreas = areas.flatten)
    (cm.triangleAreas = [])

/-! ## Steps -/

section Steps

variable {cm cm' : CellCache R} {m : MeshTables R} {c : Nat}

omit [Scalar R] in
/-- A step that adds to fields of its own, if the cache is to hold the group. -/
theorem loadIf_eq_ok {α : Type} {k : Capability}
    {load : CellCache R → Except Breach (CellCache R)} {P : α → Prop} {set : α → CellCache R}
    {old : α} (hset : set old = cm)
    (hload : ∀ out, load cm = .ok out ↔ ∃ v, P v ∧ set v = out) :
    cm.loadIf k load = .ok cm' ↔ ∃ v, Group (cm.has k) (P v) (v = old) ∧ set v = cm' := by
  unfold loadIf
  cases hk : cm.has k with
  | true =>
    rw [if_pos rfl, hload]
    exact ⟨fun ⟨v, hv, h⟩ => ⟨v, ⟨fun _ => hv, nofun⟩, h⟩,
      fun ⟨v, hv, h⟩ => ⟨v, hv.of_has rfl, h⟩⟩
  | false =>
    rw [if_neg Bool.false_ne_true, Except.ok.injEq]
    constructor
    · rintro rfl
      exact ⟨old, ⟨nofun, fun _ => rfl⟩, hset⟩
    · rintro ⟨v, hv, rfl⟩
      rw [hv.of_not_has rfl, hset]

omit [Scalar R] in
theorem loadCell_eq_ok : cm.loadCell m c = .ok cm' ↔
    ∃ center, fetch m.cellCenters c = .ok center ∧ ∃ volume, fetch m.cellVolumes c = .ok volume ∧
      ∃ vs, fetch m.cellVertices c = .ok vs ∧ ∃ es, fetch m.cellEdges c = .ok es ∧
        ∃ fs, fetch m.cellFaces c = .ok fs ∧
          { cm with
            cell := c
            center
            volume
            shape := .ofCounts vs.length es.length fs.length } = cm' := by
  simp only [loadCell, bind_eq_ok, pure_eq_ok, Except.ok.injEq]

omit [Scalar R] in
theorem loadVertexIds_eq_ok : cm.loadIf .vertexIds (·.loadVertexIds m) = .ok cm' ↔
    ∃ ids, Group (cm.has .vertexIds) (fetch m.cellVertices cm.cell = .ok ids)
        (ids = []) ∧ { cm with vertexIds := cm.vertexIds ++ ids } = cm' :=
  loadIf_eq_ok (by simp) fun _ => by
    simp only [loadVertexIds, bind_eq_ok, pure_eq_ok, Except.ok.injEq]

theorem loadVertexGeometry_eq_ok :
    cm.loadIf .vertexGeometry (·.loadVertexGeometry m) = .ok cm' ↔
      ∃ v : List (Vec3 R) × List R, Group (cm.has .vertexGeometry)
        (cm.vertexIds.mapM (fetch m.vertexPoints ·) = .ok v.1 ∧
          ∃ volumes, fetch m.cellDualVolumes cm.cell = .ok volumes ∧
            v.2 = volumes.map (· * (1 / cm.volume)))
        (v = ([], [])) ∧
      { cm with
        vertexPoints := cm.vertexPoints ++ v.1
        vertexWeights := cm.vertexWeights ++ v.2 } = cm' :=
  loadIf_eq_ok (by simp) fun out => by
    simp only [loadVertexGeometry, bind_eq_ok, pure_eq_ok, Except.ok.injEq]
    constructor
    · rintro ⟨points, hpoints, volumes, hvolumes, rfl⟩
      exact ⟨(points, _), ⟨hpoints, volumes, hvolumes, rfl⟩, rfl⟩
    · rintro ⟨⟨points, weights⟩, ⟨hpoints, volumes, hvolumes, rfl⟩, rfl⟩
      exact ⟨points, hpoints, volumes, hvolumes, rfl⟩

omit [Scalar R] in
theorem loadEdgeIds_eq_ok : cm.loadIf .edgeIds (·.loadEdgeIds m) = .ok cm' ↔
    ∃ ids, Group (cm.has .edgeIds) (fetch m.cellEdges cm.cell = .ok ids) (ids = []) ∧
      { cm with edgeIds := cm.edgeIds ++ ids } = cm' :=
  loadIf_eq_ok (by simp) fun _ => by
    simp only [loadEdgeIds, bind_eq_ok, pure_eq_ok, Except.ok.injEq]

omit [Scalar R] in
theorem loadEdgeVertices_eq_ok : cm.loadIf .edgeVertices (·.loadEdgeVertices m) = .ok cm' ↔
    ∃ ends, Group (cm.has .edgeVertices) (cm.edgeIds.mapM (cm.localEnds m) = .ok ends)
        (ends = []) ∧ { cm with edgeVertices := cm.edgeVertices ++ ends } = cm' :=
  loadIf_eq_ok (by simp) fun _ => by
    simp only [loadEdgeVertices, bind_eq_ok, pure_eq_ok, Except.ok.injEq]
    rfl

theorem loadEdgeGeometry_eq_ok : cm.loadIf .edgeGeometry (·.loadEdgeGeometry m) = .ok cm' ↔
    ∃ edges, Group (cm.has .edgeGeometry) (cm.edgeIds.mapM (edgeGeometry m) = .ok edges)
        (edges = []) ∧ { cm with edges := cm.edges ++ edges } = cm' :=
  loadIf_eq_ok (by simp) fun _ => by
    simp only [loadEdgeGeometry, bind_eq_ok, pure_eq_ok, Except.ok.injEq]
    rfl

omit [Scalar R] in
theorem loadFaceIds_eq_ok : cm.loadIf .faceIds (·.loadFaceIds m) = .ok cm' ↔
    ∃ v : List Nat × List Int, Group (cm.has .faceIds)
        (fetch m.cellFaces cm.cell = .ok v.1 ∧
          (List.range (cm.faceIds ++ v.1).length).mapM (fun k => do
            fetch (← fetch m.cellFaceSigns cm.cell) k) = .ok v.2)
        (v = ([], [])) ∧
      { cm with faceIds := cm.faceIds ++ v.1, faceSigns := cm.faceSigns ++ v.2 } = cm' :=
  loadIf_eq_ok (by simp) fun out => by
    simp only [loadFaceIds, bind_eq_ok, pure_eq_ok, Except.ok.injEq]
    exact ⟨fun ⟨ids, hids, signs, hsigns, h⟩ => ⟨(ids, signs), ⟨hids, hsigns⟩, h⟩,
      fun ⟨⟨ids, signs⟩, ⟨hids, hsigns⟩, h⟩ => ⟨ids, hids, signs, hsigns, h⟩⟩

omit [Scalar R] in
theorem loadFaceGeometry_eq_ok : cm.loadIf .faceGeometry (·.loadFaceGeometry m) = .ok cm' ↔
    ∃ faces, Group (cm.has .faceGeometry) (cm.faceIds.mapM (faceGeometry m) = .ok faces)
        (faces = []) ∧ { cm with faces := cm.faces ++ faces } = cm' :=
  loadIf_eq_ok (by simp) fun _ => by
    simp only [loadFaceGeometry, bind_eq_ok, pure_eq_ok, Except.ok.injEq]
    rfl

theorem loadFaceHeights_eq_ok :
    cm.loadIf .faceHeights (fun cm => .ok cm.loadFaceHeights) = .ok cm' ↔
      ∃ heights, Group (cm.has .faceHeights)
          (heights = cm.faces.map fun face =>
            Scalar.abs (face.unit.dot (face.center - cm.center)))
          (heights = []) ∧ { cm with faceHeights := cm.faceHeights ++ heights } = cm' :=
  loadIf_eq_ok (by simp) fun out => by
    simp only [loadFaceHeights, Except.ok.injEq, exists_eq_left]

omit [Scalar R] in
theorem loadFaceEdges_eq_ok : cm.loadIf .faceEdges (·.loadFaceEdges m) = .ok cm' ↔
    ∃ v : List Nat × List Nat, Group (cm.has .faceEdges)
        (∃ edges, cm.faceIds.mapM (cm.localFaceEdges m) = .ok edges ∧
          v.1 = 0 :: (offsetsFrom cm.faceEdgeIds.length (edges.map List.length)).tail ∧
          v.2 = edges.flatten)
        (v = ([], [])) ∧
      { cm with
        faceStarts := cm.faceStarts ++ v.1
        faceEdgeIds := cm.faceEdgeIds ++ v.2 } = cm' :=
  loadIf_eq_ok (by simp) fun out => by
    simp only [loadFaceEdges, bind_eq_ok, pure_eq_ok, Except.ok.injEq]
    constructor
    · rintro ⟨edges, hedges, rfl⟩
      exact ⟨(_, _), ⟨edges, hedges, rfl, rfl⟩, rfl⟩
    · rintro ⟨⟨starts, ids⟩, ⟨edges, hedges, rfl, rfl⟩, rfl⟩
      exact ⟨edges, hedges, rfl⟩

theorem loadTriangleAreas_eq_ok :
    cm.loadIf .faceTriangles (·.loadTriangleAreas) = .ok cm' ↔
      ∃ v, Group (cm.has .faceTriangles)
          (∃ areas, (List.range cm.faceIds.length).mapM cm.computeTriangleAreas = .ok areas ∧
            v = areas.flatten)
          (v = []) ∧ { cm with triangleAreas := cm.triangleAreas ++ v } = cm' :=
  loadIf_eq_ok (by simp) fun out => by
    simp only [loadTriangleAreas, bind_eq_ok, pure_eq_ok, Except.ok.injEq]
    constructor
    · rintro ⟨areas, hareas, rfl⟩
      exact ⟨_, ⟨areas, hareas, rfl⟩, rfl⟩
    · rintro ⟨v, ⟨areas, hareas, rfl⟩, rfl⟩
      exact ⟨areas, hareas, rfl⟩

end Steps

/-! ## The whole chain -/

/-- **A new cache is built exactly if its fields can be filled**, and then it has them. -/
theorem build_eq_ok {m : MeshTables R} {c : Nat} {ks : CapabilitySet} {cm : CellCache R} :
    build m c ks = .ok cm ↔ cm.capabilities = ks ∧ cm.Filled m c := by
  unfold build resetFor
  constructor
  · -- the fields are computed after each step: the records nest, and grow with every step
    intro h
    obtain ⟨cm₀, h₀, h⟩ := bind_eq_ok.1 h
    obtain ⟨center, hcenter, volume, hvolume, vs, hvs, es, hes, fs, hfs, rfl⟩ :=
      loadCell_eq_ok.1 h₀
    dsimp only [clear, empty] at h
    obtain ⟨cm₁, h₁, h⟩ := bind_eq_ok.1 h
    obtain ⟨vertexIds, hvertexIds, rfl⟩ := loadVertexIds_eq_ok.1 h₁
    dsimp only [List.nil_append] at h hvertexIds
    obtain ⟨cm₂, h₂, h⟩ := bind_eq_ok.1 h
    obtain ⟨⟨points, weights⟩, hgeometry, rfl⟩ := loadVertexGeometry_eq_ok.1 h₂
    dsimp only [List.nil_append] at h hgeometry
    obtain ⟨cm₃, h₃, h⟩ := bind_eq_ok.1 h
    obtain ⟨edgeIds, hedgeIds, rfl⟩ := loadEdgeIds_eq_ok.1 h₃
    dsimp only [List.nil_append] at h hedgeIds
    obtain ⟨cm₄, h₄, h⟩ := bind_eq_ok.1 h
    obtain ⟨ends, hends, rfl⟩ := loadEdgeVertices_eq_ok.1 h₄
    dsimp only [List.nil_append] at h hends
    obtain ⟨cm₅, h₅, h⟩ := bind_eq_ok.1 h
    obtain ⟨edges, hedges, rfl⟩ := loadEdgeGeometry_eq_ok.1 h₅
    dsimp only [List.nil_append] at h hedges
    obtain ⟨cm₆, h₆, h⟩ := bind_eq_ok.1 h
    obtain ⟨⟨faceIds, signs⟩, hfaceIds, rfl⟩ := loadFaceIds_eq_ok.1 h₆
    dsimp only [List.nil_append] at h hfaceIds
    obtain ⟨cm₇, h₇, h⟩ := bind_eq_ok.1 h
    obtain ⟨faces, hfaces, rfl⟩ := loadFaceGeometry_eq_ok.1 h₇
    dsimp only [List.nil_append] at h hfaces
    obtain ⟨cm₈, h₈, h⟩ := bind_eq_ok.1 h
    obtain ⟨heights, hheights, rfl⟩ := loadFaceHeights_eq_ok.1 h₈
    dsimp only [List.nil_append] at h hheights
    obtain ⟨cm₉, h₉, h⟩ := bind_eq_ok.1 h
    obtain ⟨⟨starts, faceEdgeIds⟩, hfaceEdges, rfl⟩ := loadFaceEdges_eq_ok.1 h₉
    dsimp only [List.nil_append] at h hfaceEdges
    simp only [List.length_nil, cons_tail_offsetsFrom] at hfaceEdges
    obtain ⟨areas, hareas, rfl⟩ := loadTriangleAreas_eq_ok.1 h
    dsimp only [List.nil_append] at hareas
    exact ⟨rfl, {
      cell := rfl
      center := hcenter
      volume := hvolume
      shape := ⟨vs, hvs, es, hes, fs, hfs, rfl⟩
      vertexIds := hvertexIds
      vertexGeometry := ⟨hgeometry.of_has, fun hk => Prod.mk.inj (hgeometry.of_not_has hk)⟩
      edgeIds := hedgeIds
      edgeVertices := hends
      edges := hedges
      faceIds := ⟨hfaceIds.of_has, fun hk => Prod.mk.inj (hfaceIds.of_not_has hk)⟩
      faces := hfaces
      faceHeights := hheights
      faceEdges := ⟨hfaceEdges.of_has, fun hk => Prod.mk.inj (hfaceEdges.of_not_has hk)⟩
      triangleAreas := hareas }⟩
  · rintro ⟨rfl, h⟩
    obtain ⟨vs, hvs, es, hes, fs, hfs, hshape⟩ := h.shape
    refine bind_eq_ok.2 ⟨_, loadCell_eq_ok.2
      ⟨_, h.center, _, h.volume, vs, hvs, es, hes, fs, hfs, rfl⟩, ?_⟩
    dsimp only [clear, empty]
    refine bind_eq_ok.2 ⟨_, loadVertexIds_eq_ok.2 ⟨cm.vertexIds, h.vertexIds, rfl⟩, ?_⟩
    dsimp only [List.nil_append]
    refine bind_eq_ok.2 ⟨_, loadVertexGeometry_eq_ok.2
      ⟨(cm.vertexPoints, cm.vertexWeights), ⟨h.vertexGeometry.of_has,
        fun hk => Prod.ext_iff.2 (h.vertexGeometry.of_not_has hk)⟩, rfl⟩, ?_⟩
    dsimp only [List.nil_append]
    refine bind_eq_ok.2 ⟨_, loadEdgeIds_eq_ok.2 ⟨cm.edgeIds, h.edgeIds, rfl⟩, ?_⟩
    dsimp only [List.nil_append]
    refine bind_eq_ok.2 ⟨_, loadEdgeVertices_eq_ok.2
      ⟨cm.edgeVertices, h.edgeVertices, rfl⟩, ?_⟩
    dsimp only [List.nil_append]
    refine bind_eq_ok.2 ⟨_, loadEdgeGeometry_eq_ok.2 ⟨cm.edges, h.edges, rfl⟩, ?_⟩
    dsimp only [List.nil_append]
    refine bind_eq_ok.2 ⟨_, loadFaceIds_eq_ok.2
      ⟨(cm.faceIds, cm.faceSigns), ⟨h.faceIds.of_has,
        fun hk => Prod.ext_iff.2 (h.faceIds.of_not_has hk)⟩, rfl⟩, ?_⟩
    dsimp only [List.nil_append]
    refine bind_eq_ok.2 ⟨_, loadFaceGeometry_eq_ok.2 ⟨cm.faces, h.faces, rfl⟩, ?_⟩
    dsimp only [List.nil_append]
    refine bind_eq_ok.2 ⟨_, loadFaceHeights_eq_ok.2 ⟨cm.faceHeights, h.faceHeights, rfl⟩, ?_⟩
    dsimp only [List.nil_append]
    refine bind_eq_ok.2 ⟨_, loadFaceEdges_eq_ok.2
      ⟨(cm.faceStarts, cm.faceEdgeIds), ⟨fun hk => ?_,
        fun hk => Prod.ext_iff.2 (h.faceEdges.of_not_has hk)⟩, rfl⟩, ?_⟩
    · simp only [List.length_nil, cons_tail_offsetsFrom]
      exact h.faceEdges.of_has hk
    dsimp only [List.nil_append]
    refine loadTriangleAreas_eq_ok.2 ⟨cm.triangleAreas, h.triangleAreas, ?_⟩
    obtain rfl := h.cell
    cases cm
    dsimp only [List.nil_append] at hshape ⊢
    rw [hshape]

end CellCache

end Polyfield
