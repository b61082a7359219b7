import Polyfield.Cell.Flux
import Polyfield.Proofs.CacheContents

/-!
# The pieces of a cell in mesh numbers

The triangles that the faces of a cell are divided into, and the tetrahedra over them, as
functions of the tables.

* `CellCache.facePieces_ofTables` : the triangles that a cache finds for a face are
  `MeshTables.triangles`;
* `CellCache.cellPieces_ofTables` : and the tetrahedra of the cell `MeshTables.pieces`;
* `CellCache.centerFan_ofTables` : the triangles of a flux are `MeshTables.centerFan`.
-/

namespace Polyfield

variable {R : Type} [Scalar R]

namespace MeshTables

/-! ## Triangles of a face -/

omit [Scalar R] in
/-- The vertex of a triangle that is not an end of its first edge, from its second edge. -/
def thirdVertex (m : MeshTables R) (e₀ e₁ : Nat) : Nat :=
  if (m.ends e₁).1 = (m.ends e₀).1 ∨ (m.ends e₁).1 = (m.ends e₀).2 then (m.ends e₁).2
  else (m.ends e₁).1

/-- A face with three edges, of which the first two are given, as one triangle. -/
def triangle (m : MeshTables R) (f e₀ e₁ : Nat) : Simplex R 3 :=
  .triangle (m.point (m.ends e₀).1) (m.point (m.ends e₀).2) (m.point (m.thirdVertex e₀ e₁))
    (m.face f).measure

/-- The triangle between an edge and the center of a face. -/
def sideTriangle (m : MeshTables R) (f e : Nat) : Simplex R 3 :=
  .triangle (m.point (m.ends e).1) (m.point (m.ends e).2) (m.face f).center (m.sideArea f e)

/-- The triangles between the edges of a face and its center. -/
def fan (m : MeshTables R) (f : Nat) : List (Simplex R 3) :=
  (m.faceEdges.getD f []).map (m.sideTriangle f)

/-- The same triangles with the center in front. -/
def centerFan (m : MeshTables R) (f : Nat) : List (Simplex R 3) :=
  (m.faceEdges.getD f []).map fun e =>
    .triangle (m.face f).center (m.point (m.ends e).1) (m.point (m.ends e).2) (m.sideArea f e)

/-- The triangles that a face is divided into. -/
def triangles (m : MeshTables R) (f : Nat) : List (Simplex R 3) :=
  match m.faceEdges.getD f [] with
  | [e₀, e₁, _] => [m.triangle f e₀ e₁]
  | _ => m.fan f

theorem triangles_of_three {m : MeshTables R} {f e₀ e₁ e₂ : Nat}
    (h : m.faceEdges.getD f [] = [e₀, e₁, e₂]) : m.triangles f = [m.triangle f e₀ e₁] := by
  rw [triangles, h]

theorem triangles_of_length_ne {m : MeshTables R} {f : Nat}
    (h : (m.faceEdges.getD f []).length ≠ 3) : m.triangles f = m.fan f := by
  unfold triangles
  split
  · next heq =>
    rw [heq] at h
    exact absurd rfl h
  · rfl

/-- The distance from the cell center to the plane of a face. -/
def faceHeight (m : MeshTables R) (c f : Nat) : R :=
  Scalar.abs ((m.face f).unit.dot ((m.face f).center - m.cellCenters.getD c 0))

/-- The tetrahedra between the triangles of a face and the cell center. -/
def cones (m : MeshTables R) (c f : Nat) : List (Simplex R 4) :=
  (m.triangles f).map fun s =>
    ⟨s.corners.push (m.cellCenters.getD c 0), m.faceHeight c f / ((3 : Nat) : R) * s.measure⟩

/-- A cell of four vertices as one tetrahedron. -/
def wholeTetra (m : MeshTables R) (c : Nat) : Simplex R 4 :=
  .tetra ((m.pointsOfCell c).getD 0 0) ((m.pointsOfCell c).getD 1 0)
    ((m.pointsOfCell c).getD 2 0) ((m.pointsOfCell c).getD 3 0) (m.cellVolumes.getD c 0)

omit [Scalar R] in
/-- The topological type of a cell. -/
def shape (m : MeshTables R) (c : Nat) : CellShape :=
  .ofCounts (m.cellVertices.getD c []).length (m.cellEdges.getD c []).length
    (m.cellFaces.getD c []).length

/-- The tetrahedra that a cell is divided into. -/
def pieces (m : MeshTables R) (c : Nat) : List (Simplex R 4) :=
  if m.shape c = .tetra then [m.wholeTetra c] else (m.cellFaces.getD c []).flatMap (m.cones c)

omit [Scalar R] in
/-- A tetrahedron has four vertices. -/
theorem length_of_shape_eq_tetra {m : MeshTables R} {c : Nat} (h : m.shape c = .tetra) :
    (m.cellVertices.getD c []).length = 4 := by
  unfold shape CellShape.ofCounts at h
  split at h
  · assumption
  all_goals cases h

omit [Scalar R] in
/-- The third vertex of a triangle is a vertex of the cell. -/
theorem thirdVertex_mem {m : MeshTables R} {c e₁ : Nat} (h : m.Consistent c)
    (he : e₁ ∈ m.cellEdges.getD c []) (e₀ : Nat) :
    m.thirdVertex e₀ e₁ ∈ m.cellVertices.getD c [] := by
  have hmem := h.ends_mem e₁ he
  unfold thirdVertex
  split
  · exact hmem.2
  · exact hmem.1

end MeshTables

/-! ## What a cache finds -/

namespace CellCache

variable {m : MeshTables R} {c k f : Nat} {ks : CapabilitySet}

theorem faceFan_ofTables (h : m.Consistent c) (hks : ∀ j ∈ fanNeeds, ks.contains j = true)
    (hfaces : ks.contains .faceGeometry = true) (hpoints : ks.contains .vertexGeometry = true)
    (hk : (m.cellFaces.getD c [])[k]? = some f) :
    (ofTables m c ks).faceFan k = .ok (m.fan f) := by
  have hf := List.mem_of_getElem? hk
  rw [faceFan, fetch_faces_ofTables hfaces hk, faceEdges_ofTables (hks _ (by decide)) hk,
    faceTriangleAreas_ofTables (hks _ (by decide)) (hks _ (by decide)) hk, ok_bind, ok_bind,
    ok_bind, List.zip_map', List.mapM_map]
  refine mapM_eq_map fun e he => ?_
  show (do
    let ends ← (ofTables m c ks).edgePoints (m.edgePosition c e)
    return Simplex.triangle ends.1 ends.2 (m.face f).center (m.sideArea f e)) = _
  rw [edgePoints_ofTables h (hks _ (by decide)) hpoints (h.faceEdges_mem f hf e he)]
  rfl

/-- The third vertex of a triangle in local numbers. -/
theorem triangleVertices_ofTables (h : m.Consistent c)
    (hedges : ks.contains .faceEdges = true) (hends : ks.contains .edgeVertices = true)
    (hk : (m.cellFaces.getD c [])[k]? = some f) {e₀ e₁ e₂ : Nat}
    (hf : m.faceEdges.getD f [] = [e₀, e₁, e₂]) :
    (ofTables m c ks).triangleVertices k =
      .ok ((m.endPositions c e₀).1, (m.endPositions c e₀).2,
        (m.cellVertices.getD c []).idxOf (m.thirdVertex e₀ e₁)) := by
  have hmem := fun e he => h.faceEdges_mem f (List.mem_of_getElem? hk) e he
  rw [hf] at hmem
  have h₀ := hmem e₀ (by simp)
  have h₁ := hmem e₁ (by simp)
  have hthird : (if (m.endPositions c e₁).1 = (m.endPositions c e₀).1 ∨
      (m.endPositions c e₁).1 = (m.endPositions c e₀).2 then (m.endPositions c e₁).2
      else (m.endPositions c e₁).1) =
        (m.cellVertices.getD c []).idxOf (m.thirdVertex e₀ e₁) := by
    simp only [MeshTables.endPositions, MeshTables.thirdVertex,
      List.idxOf_inj (h.ends_mem e₁ h₁).1]
    split <;> rfl
  simp only [triangleVertices, faceEdges_ofTables hedges hk, hf, ok_bind, List.map_cons,
    List.map_nil, fetch_edgeVertices_ofTables hends h₀, fetch_edgeVertices_ofTables hends h₁,
    pure_eq_ok, hthird]

theorem faceTriangle_ofTables (h : m.Consistent c) (hks : ∀ j ∈ faceNeeds, ks.contains j = true)
    (hk : (m.cellFaces.getD c [])[k]? = some f) {e₀ e₁ e₂ : Nat}
    (hf : m.faceEdges.getD f [] = [e₀, e₁, e₂]) :
    (ofTables m c ks).faceTriangle k = .ok (m.triangle f e₀ e₁) := by
  have hmem := fun e he => h.faceEdges_mem f (List.mem_of_getElem? hk) e he
  rw [hf] at hmem
  have h₀ := h.ends_mem e₀ (hmem e₀ (by simp))
  have hthird := MeshTables.thirdVertex_mem h (hmem e₁ (by simp)) e₀
  have hpoints : ks.contains .vertexGeometry = true := hks _ (by decide)
  rw [faceTriangle, triangleVertices_ofTables h (hks _ (by decide)) (hks _ (by decide)) hk hf,
    ok_bind]
  simp only [MeshTables.endPositions, fetch_vertexPoints_ofTables hpoints h₀.1,
    fetch_vertexPoints_ofTables hpoints h₀.2, fetch_vertexPoints_ofTables hpoints hthird,
    fetch_faces_ofTables (hks _ (by decide)) hk, ok_bind, pure_eq_ok]
  rfl

/-- **The triangles of a face in the cache are those of the tables.** -/
theorem facePieces_ofTables (h : m.Consistent c) (hks : ∀ j ∈ faceNeeds, ks.contains j = true)
    (hk : (m.cellFaces.getD c [])[k]? = some f) :
    (ofTables m c ks).facePieces k = .ok (m.triangles f) := by
  have hneeds : ∀ j ∈ fanNeeds, ks.contains j = true := fun j hj =>
    hks j ((show ∀ j ∈ fanNeeds, j ∈ faceNeeds by decide) j hj)
  rw [facePieces, faceEdges_ofTables (hks _ (by decide)) hk, ok_bind, List.length_map]
  by_cases hlen : (m.faceEdges.getD f []).length = 3
  · obtain ⟨e₀, e₁, e₂, hf⟩ := List.length_eq_three.1 hlen
    rw [if_pos hlen, faceTriangle_ofTables h hks hk hf,
      MeshTables.triangles_of_three hf]
    rfl
  · rw [if_neg hlen, faceFan_ofTables h hneeds (hks _ (by decide)) (hks _ (by decide)) hk,
      MeshTables.triangles_of_length_ne hlen]

/-- **The tetrahedra over a face in the cache are those of the tables.** -/
theorem conePieces_ofTables (h : m.Consistent c) (hks : ∀ j ∈ cellNeeds, ks.contains j = true)
    (hk : (m.cellFaces.getD c [])[k]? = some f) :
    (ofTables m c ks).conePieces k = .ok (m.cones c f) := by
  have hneeds : ∀ j ∈ faceNeeds, ks.contains j = true := fun j hj =>
    hks j (List.mem_append_left _ hj)
  rw [conePieces, fetch_faceHeights_ofTables (hks _ (by decide)) hk,
    facePieces_ofTables h hneeds hk]
  rfl

theorem faceCount_ofTables (hids : ks.contains .faceIds = true) :
    (ofTables m c ks).faceCount = (m.cellFaces.getD c []).length := by
  rw [faceCount, faceIds_ofTables hids]

theorem vertexCount_ofTables (hids : ks.contains .vertexIds = true) :
    (ofTables m c ks).vertexCount = (m.cellVertices.getD c []).length := by
  rw [vertexCount, vertexIds_ofTables hids]

theorem wholeTetra_ofTables (hpoints : ks.contains .vertexGeometry = true)
    (h4 : (m.cellVertices.getD c []).length = 4) :
    (ofTables m c ks).wholeTetra = .ok (m.wholeTetra c) := by
  have hlt : ∀ i < 4, i < (m.pointsOfCell c).length := fun i hi => by
    rw [MeshTables.pointsOfCell, List.length_map]
    omega
  rw [wholeTetra, vertexPoints_ofTables hpoints, fetch_getD (hlt 0 (by omega)) 0,
    fetch_getD (hlt 1 (by omega)) 0, fetch_getD (hlt 2 (by omega)) 0,
    fetch_getD (hlt 3 (by omega)) 0]
  rfl

/-- **The tetrahedra of the cell in the cache are those of the tables.** -/
theorem cellPieces_ofTables (h : m.Consistent c) (hks : ∀ j ∈ cellNeeds, ks.contains j = true)
    (hids : ks.contains .faceIds = true) :
    (ofTables m c ks).cellPieces = .ok (m.pieces c) := by
  have hshape : (ofTables m c ks).shape = m.shape c := rfl
  rw [cellPieces, hshape, MeshTables.pieces]
  by_cases htetra : m.shape c = .tetra
  · rw [if_pos htetra, if_pos htetra,
      wholeTetra_ofTables (hks _ (by decide)) (MeshTables.length_of_shape_eq_tetra htetra)]
    rfl
  · rw [if_neg htetra, if_neg htetra, faceCount_ofTables hids,
      mapM_range_eq_map fun k f hk => conePieces_ofTables h hks hk]
    rfl

/-- The triangles of a flux through a face. -/
theorem centerFan_ofTables (h : m.Consistent c) (hks : ∀ j ∈ fanNeeds, ks.contains j = true)
    (hfaces : ks.contains .faceGeometry = true) (hpoints : ks.contains .vertexGeometry = true)
    (hk : (m.cellFaces.getD c [])[k]? = some f) :
    (ofTables m c ks).centerFan k = .ok (m.centerFan f) := by
  rw [centerFan, faceFan_ofTables h hks hfaces hpoints hk, ok_bind, pure_eq_ok, MeshTables.fan,
    List.map_map]
  rfl

end CellCache

end Polyfield
