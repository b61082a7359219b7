import Mathlib.Algebra.Module.BigOperators
import Polyfield.Mesh.Polyhedral
import Polyfield.Proofs.Sides
import Polyfield.Proofs.SparseSum
import Polyfield.Proofs.TableReads

/-!
# Incidence of faces, edges and vertices

What the tables of a polyhedral mesh say about the loops it was built from.

* `Numbering.ofSide_mem_edges`, `Numbering.edges_getD_edgeId` : every side of a loop has an edge,
  which its number leads back to;
* `Numbering.sum_sides_eq_sum_walk` : a function that changes its sign with the direction of a
  side adds up to the same along the sides of a loop and along its edges, with their directions;
* `PolyhedralMesh.mem_faceEdges`, `PolyhedralMesh.mem_cellEdges`,
  `PolyhedralMesh.mem_cellVertices` : the edges and vertices of faces and cells.
-/

namespace Polyfield

namespace Numbering

/-! ## Loops and edges by number -/

/-- The loop of a face. -/
def loop (n : Numbering) (f : Nat) : Loop := n.loops.getD f []

/-- The faces of a cell, as they were listed. -/
def facesOfCell (n : Numbering) (c : Nat) : List Nat := n.cellFaces.getD c []

/-- The ends of an edge. -/
def ends (n : Numbering) (e : Nat) : Edge := n.edges.getD e (0, 0)

theorem loop_mem {n : Numbering} {f : Nat} (h : f < n.loops.length) : n.loop f ∈ n.loops := by
  rw [loop, List.getD_eq_getElem _ _ h]
  exact List.getElem_mem h

variable {cells : List (List Loop)}

theorem nodup_edges (cells : List (List Loop)) : (ofCells cells).edges.Nodup := by
  have h := nodup_firstSeen id (((ofCells cells).loops.flatMap cyclicPairs).map Edge.ofSide)
  rwa [List.map_id] at h

/-- Every side of a loop has an edge. -/
theorem ofSide_mem_edges {l : Loop} (hl : l ∈ (ofCells cells).loops) {s : Nat × Nat}
    (hs : s ∈ cyclicPairs l) : Edge.ofSide s ∈ (ofCells cells).edges := by
  have hmem : Edge.ofSide s ∈ ((ofCells cells).loops.flatMap cyclicPairs).map Edge.ofSide :=
    List.mem_map_of_mem (List.mem_flatMap.2 ⟨l, hl, hs⟩)
  have hkey := @key_mem_firstSeen _ _ _ id _ _ hmem
  simpa [ofCells] using hkey

/-- Every edge is the edge of a side of a loop. -/
theorem exists_side_of_mem_edges {e : Edge} (he : e ∈ (ofCells cells).edges) :
    ∃ l ∈ (ofCells cells).loops, ∃ s ∈ cyclicPairs l, Edge.ofSide s = e := by
  obtain ⟨s, hs, rfl⟩ := List.mem_map.1 (mem_of_mem_firstSeen he)
  obtain ⟨l, hl, hsl⟩ := List.mem_flatMap.1 hs
  exact ⟨l, hl, s, hsl, rfl⟩

theorem edgeId_lt {n : Numbering} {e : Edge} (he : e ∈ n.edges) : n.edgeId e < n.edges.length :=
  List.idxOf_lt_length_of_mem he

/-- The number of an edge leads back to it. -/
theorem ends_edgeId {n : Numbering} {e : Edge} (he : e ∈ n.edges) : n.ends (n.edgeId e) = e := by
  rw [ends, List.getD_eq_getElem _ _ (edgeId_lt he)]
  exact List.getElem_idxOf (edgeId_lt he)

/-- The faces of a cell are faces of the mesh. -/
theorem lt_of_mem_facesOfCell {c f : Nat} (h : f ∈ (ofCells cells).facesOfCell c) :
    f < (ofCells cells).loops.length := by
  by_cases hc : c < (ofCells cells).cellFaces.length
  · rw [facesOfCell, List.getD_eq_getElem _ _ hc] at h
    simp only [ofCells, List.getElem_map, List.mem_map] at h hc
    obtain ⟨l, hl, rfl⟩ := h
    rw [List.length_map] at hc
    have hmem : l ∈ cells.flatten := List.mem_flatten_of_mem (List.getElem_mem hc) hl
    have hkey : l.key ∈ (firstSeen Loop.key cells.flatten).map Loop.key := key_mem_firstSeen hmem
    have hlt := List.idxOf_lt_length_of_mem hkey
    rwa [List.length_map] at hlt
  · rw [facesOfCell, List.getD_eq_default _ _ (by omega)] at h
    simp at h

theorem loop_mem_of_mem_facesOfCell {c f : Nat} (h : f ∈ (ofCells cells).facesOfCell c) :
    (ofCells cells).loop f ∈ (ofCells cells).loops :=
  loop_mem (lt_of_mem_facesOfCell h)

/-! ## Walks -/

theorem mem_walk_columns {n : Numbering} {l : Loop} {e : Nat} :
    e ∈ (n.walk l).map Prod.fst ↔ ∃ s ∈ cyclicPairs l, n.edgeId (Edge.ofSide s) = e := by
  simp [walk]

/-- A loop of at least three distinct vertices meets every edge once. -/
theorem nodup_walk_columns {l : Loop} (hl : l ∈ (ofCells cells).loops) (hnd : l.Nodup)
    (hlen : 3 ≤ l.length) : (((ofCells cells).walk l).map Prod.fst).Nodup := by
  have hsides := nodup_map_ofSide hnd hlen
  have hmap : ((ofCells cells).walk l).map Prod.fst =
      ((cyclicPairs l).map Edge.ofSide).map (ofCells cells).edgeId := by
    simp [walk]
  rw [hmap]
  refine hsides.map_on fun e he e' he' h => ?_
  obtain ⟨s, hs, rfl⟩ := List.mem_map.1 he
  obtain ⟨s', hs', rfl⟩ := List.mem_map.1 he'
  rw [← ends_edgeId (ofSide_mem_edges hl hs), ← ends_edgeId (ofSide_mem_edges hl hs'), h]

/-- A value that changes its sign with the direction of a side is the value of the edge times the
direction. -/
theorem walkSign_smul {M : Type} [AddCommGroup M] {G : Nat → Nat → M}
    (hG : ∀ a b, G a b = -G b a) (s : Nat × Nat) :
    Edge.walkSign s • G (Edge.ofSide s).1 (Edge.ofSide s).2 = G s.1 s.2 := by
  obtain ⟨a, b⟩ := s
  by_cases h : a < b
  · simp [Edge.walkSign, Edge.ofSide, h, min_eq_left h.le, max_eq_right h.le]
  · simp [Edge.walkSign, Edge.ofSide, h, min_eq_right (not_lt.1 h), max_eq_left (not_lt.1 h),
      hG a b]

/-- **Sums along a loop are sums over its edges**, for functions that change their sign with the
direction of a side. -/
theorem sum_sides_eq_sum_walk {M : Type} [AddCommGroup M] {G : Nat → Nat → M}
    (hG : ∀ a b, G a b = -G b a) {l : Loop} (hl : l ∈ (ofCells cells).loops) :
    ((cyclicPairs l).map fun s => G s.1 s.2).sum = (((ofCells cells).walk l).map fun e =>
      e.2 • G ((ofCells cells).ends e.1).1 ((ofCells cells).ends e.1).2).sum := by
  rw [walk, List.map_map]
  refine congrArg List.sum (List.map_congr_left fun s hs => ?_)
  rw [Function.comp_apply, ends_edgeId (ofSide_mem_edges hl hs), walkSign_smul hG]

end Numbering

/-! ## Tables of a mesh -/

theorem signTotal_eq_sum (signs : List Int) : signTotal signs = signs.sum :=
  List.sum_eq_foldl.symm

/-- The direction of an edge of a face; zero for other edges. -/
def PolyhedralMesh.edgeSign {R : Type} (m : PolyhedralMesh R) (f e : Nat) : Int :=
  (((m.faceEdges.getD f []).zip (m.faceEdgeSigns.getD f [])).lookup e).getD 0

namespace PolyhedralMesh

variable {R : Type} [Scalar R] {vertices : List (Vec3 R)} {n : Numbering}

theorem faceGeometries_getD {f : Nat} (h : f < n.loops.length) :
    (faceGeometries vertices n).getD f default =
      Polygon.geometry (corners vertices (n.loop f)) := by
  rw [faceGeometries, List.getD_eq_getElem _ _ (by simpa using h), List.getElem_map,
    Numbering.loop, List.getD_eq_getElem _ _ h]

theorem face_assemble (vertices : List (Vec3 R)) (n : Numbering) (f : Nat) :
    (assemble vertices n).face f = (faceGeometries vertices n).getD f default := by
  have hcenter : ((faceGeometries vertices n).map (·.center)).getD f 0 =
      ((faceGeometries vertices n).getD f default).center :=
    getD_map_eq (a := default) rfl _ _
  have hunit : ((faceGeometries vertices n).map (·.unit)).getD f 0 =
      ((faceGeometries vertices n).getD f default).unit :=
    getD_map_eq (a := default) rfl _ _
  have hmeasure : ((faceGeometries vertices n).map (·.measure)).getD f 0 =
      ((faceGeometries vertices n).getD f default).measure :=
    getD_map_eq (a := default) rfl _ _
  simp only [MeshTables.face, assemble, hcenter, hunit, hmeasure]

/-- The dual parts of a cell. -/
def partsOfCell (vertices : List (Vec3 R)) (n : Numbering) (c : Nat) : List (DualPart R) :=
  dualParts vertices n (faceGeometries vertices n) ((n.loops.map (faceRow n)).map SparseRow.columns)
    (n.facesOfCell c)

theorem faceEdges_getD (vertices : List (Vec3 R)) (n : Numbering) (f : Nat) :
    (assemble vertices n).faceEdges.getD f [] =
      SparseRow.columns (faceRow n (n.loop f)) := by
  simp only [assemble, Numbering.loop, List.map_map]
  exact getD_map_eq (by simp [faceRow, Numbering.walk, cyclicPairs, SparseRow.columns]) _ _

theorem faceEdgeSigns_getD (vertices : List (Vec3 R)) (n : Numbering) (f : Nat) :
    (assemble vertices n).faceEdgeSigns.getD f [] =
      SparseRow.values (faceRow n (n.loop f)) := by
  simp only [assemble, Numbering.loop, List.map_map]
  exact getD_map_eq (by simp [faceRow, Numbering.walk, cyclicPairs, SparseRow.values]) _ _

theorem cellVolumes_getD {c : Nat} (hc : c < n.cellFaces.length) :
    (assemble vertices n).cellVolumes.getD c 0 =
      Cone.cellVolume (facesOf (faceGeometries vertices n) (n.facesOfCell c)) := by
  simp only [assemble, Numbering.facesOfCell]
  rw [List.getD_eq_getElem _ _ (by simpa using hc), List.getElem_map,
    List.getD_eq_getElem _ _ hc]

theorem cellCenters_getD {c : Nat} (hc : c < n.cellFaces.length) :
    (assemble vertices n).cellCenters.getD c 0 =
      Cone.cellCenter (facesOf (faceGeometries vertices n) (n.facesOfCell c)) := by
  simp only [assemble, Numbering.facesOfCell]
  rw [List.getD_eq_getElem _ _ (by simpa using hc), List.getElem_map,
    List.getD_eq_getElem _ _ hc]

theorem cellFaces_getD (vertices : List (Vec3 R)) (n : Numbering) (c : Nat) :
    (assemble vertices n).cellFaces.getD c [] =
      SparseRow.columns (cellRow (faceGeometries vertices n) (n.facesOfCell c)) := by
  simp only [assemble, Numbering.facesOfCell, List.map_map]
  exact getD_map_eq (by simp [cellRow, SparseRow.columns]) _ _

theorem cellFaceSigns_getD (vertices : List (Vec3 R)) (n : Numbering) (c : Nat) :
    (assemble vertices n).cellFaceSigns.getD c [] =
      SparseRow.values (cellRow (faceGeometries vertices n) (n.facesOfCell c)) := by
  simp only [assemble, Numbering.facesOfCell, List.map_map]
  exact getD_map_eq (by simp [cellRow, SparseRow.values]) _ _

theorem cellEdges_getD (vertices : List (Vec3 R)) (n : Numbering) (c : Nat) :
    (assemble vertices n).cellEdges.getD c [] =
      SparseRow.columns (edgeRow (partsOfCell vertices n c)) := by
  simp only [assemble, partsOfCell, Numbering.facesOfCell, List.map_map]
  exact getD_map_eq (by simp [edgeRow, dualParts, SparseRow.columns]) _ _

theorem cellDualFaces_getD (vertices : List (Vec3 R)) (n : Numbering) (c : Nat) :
    (assemble vertices n).cellDualFaces.getD c [] =
      SparseRow.values (edgeRow (partsOfCell vertices n c)) := by
  simp only [assemble, partsOfCell, Numbering.facesOfCell, List.map_map]
  exact getD_map_eq (by simp [edgeRow, dualParts, SparseRow.values]) _ _

theorem cellVertices_getD (vertices : List (Vec3 R)) (n : Numbering) (c : Nat) :
    (assemble vertices n).cellVertices.getD c [] =
      SparseRow.columns (vertexRow (partsOfCell vertices n c)) := by
  simp only [assemble, partsOfCell, Numbering.facesOfCell, List.map_map]
  exact getD_map_eq (by simp [vertexRow, dualParts, SparseRow.columns]) _ _

theorem cellDualVolumes_getD (vertices : List (Vec3 R)) (n : Numbering) (c : Nat) :
    (assemble vertices n).cellDualVolumes.getD c [] =
      SparseRow.values (vertexRow (partsOfCell vertices n c)) := by
  simp only [assemble, partsOfCell, Numbering.facesOfCell, List.map_map]
  exact getD_map_eq (by simp [vertexRow, dualParts, SparseRow.values]) _ _

/-! ## Signs -/

theorem edgeSign_eq (vertices : List (Vec3 R)) (n : Numbering) (f e : Nat) :
    (assemble vertices n).edgeSign f e =
      signTotal (SparseRow.valuesAt e (n.walk (n.loop f))) := by
  rw [edgeSign, faceEdges_getD, faceEdgeSigns_getD, SparseRow.zip_columns_values]
  exact SparseRow.lookup_gather signTotal _ e

/-- A cell that lists a face several times counts its orientation as often. -/
theorem faceSign_eq_count (vertices : List (Vec3 R)) (n : Numbering) (c f : Nat) :
    (assemble vertices n).faceSign c f = (n.facesOfCell c).count f • Cone.sign
      (Cone.apex (facesOf (faceGeometries vertices n) (n.facesOfCell c)))
      ((faceGeometries vertices n).getD f default) := by
  rw [MeshTables.faceSign, cellFaces_getD, cellFaceSigns_getD, SparseRow.zip_columns_values]
  refine (SparseRow.lookup_gather signTotal _ f).trans ?_
  rw [SparseRow.valuesAt_map, signTotal_eq_sum, List.sum_replicate]

/-- **Sums along a loop are sums over edges**, for functions that change their sign with the
direction of a side, and any edges that hold those of the face. -/
theorem sum_sides_eq_sum_edgeSign {M : Type} [AddCommGroup M] {G : Nat → Nat → M}
    (hG : ∀ a b, G a b = -G b a) {cells : List (List Loop)} {f : Nat}
    (hl : (Numbering.ofCells cells).loop f ∈ (Numbering.ofCells cells).loops) {E : List Nat}
    (hnd : E.Nodup)
    (hE : ∀ e ∈ (assemble vertices (.ofCells cells)).faceEdges.getD f [], e ∈ E) :
    ((cyclicPairs ((Numbering.ofCells cells).loop f)).map fun s => G s.1 s.2).sum =
      (E.map fun e => (assemble vertices (.ofCells cells)).edgeSign f e •
        G ((Numbering.ofCells cells).ends e).1 ((Numbering.ofCells cells).ends e).2).sum := by
  rw [Numbering.sum_sides_eq_sum_walk hG hl, ← SparseRow.sum_map_columns
    (fun e (sign : Int) => sign • G ((Numbering.ofCells cells).ends e).1
      ((Numbering.ofCells cells).ends e).2) hnd]
  · refine congrArg List.sum (List.map_congr_left fun e _ => ?_)
    rw [edgeSign_eq, signTotal_eq_sum, List.sum_smul]
  · intro e he
    refine hE e.1 ?_
    rw [faceEdges_getD, faceRow, SparseRow.columns_gather, SparseRow.mem_sortedColumns]
    exact List.mem_map_of_mem he

/-! ## Members -/

theorem mem_faceEdges {f e : Nat} : e ∈ (assemble vertices n).faceEdges.getD f [] ↔
    ∃ s ∈ cyclicPairs (n.loop f), n.edgeId (Edge.ofSide s) = e := by
  rw [faceEdges_getD, faceRow, SparseRow.columns_gather, SparseRow.mem_sortedColumns,
    Numbering.mem_walk_columns]

/-- The edges of a face whose loop has at least three distinct vertices are those of its sides. -/
theorem faceEdges_perm {cells : List (List Loop)} {f : Nat}
    (hl : (Numbering.ofCells cells).loop f ∈ (Numbering.ofCells cells).loops)
    (hnd : ((Numbering.ofCells cells).loop f).Nodup)
    (hlen : 3 ≤ ((Numbering.ofCells cells).loop f).length) :
    ((assemble vertices (.ofCells cells)).faceEdges.getD f []).Perm
      ((cyclicPairs ((Numbering.ofCells cells).loop f)).map fun s =>
        (Numbering.ofCells cells).edgeId (Edge.ofSide s)) := by
  rw [faceEdges_getD, faceRow, SparseRow.columns_gather]
  refine (SparseRow.sortedColumns_perm (Numbering.nodup_walk_columns hl hnd hlen)).trans
    (.of_eq ?_)
  rw [Numbering.walk, List.map_map]
  rfl

/-- The faces of a cell in increasing order. -/
theorem cellFaces_eq_mergeSort (c : Nat) :
    (assemble vertices n).cellFaces.getD c [] = (firstSeen id (n.facesOfCell c)).mergeSort := by
  rw [cellFaces_getD, cellRow, SparseRow.columns_gather, SparseRow.sortedColumns, List.map_map]
  simp only [Function.comp_def, List.map_id']

theorem mem_cellFaces {c f : Nat} :
    f ∈ (assemble vertices n).cellFaces.getD c [] ↔ f ∈ n.facesOfCell c := by
  rw [cellFaces_getD, cellRow, SparseRow.columns_gather, SparseRow.mem_sortedColumns]
  simp

theorem mem_partsOfCell {c : Nat} {p : DualPart R} : p ∈ partsOfCell vertices n c ↔
    ∃ f ∈ n.facesOfCell c, ∃ e ∈ (assemble vertices n).faceEdges.getD f [],
      dualPart vertices n (Cone.cellCenter (facesOf (faceGeometries vertices n) (n.facesOfCell c)))
        ((faceGeometries vertices n).getD f default).center e = p := by
  rw [partsOfCell, dualParts, List.mem_flatMap]
  simp only [List.mem_map]
  rfl

/-- Every vertex of a face is an end of two of its edges. -/
theorem ends_partsOfCell_perm {R : Type} [Scalar R] {vertices : List (Vec3 R)}
    {cells : List (List Loop)} {c : Nat}
    (hnd : ∀ f ∈ (Numbering.ofCells cells).facesOfCell c, ((Numbering.ofCells cells).loop f).Nodup)
    (hlen : ∀ f ∈ (Numbering.ofCells cells).facesOfCell c,
      3 ≤ ((Numbering.ofCells cells).loop f).length) :
    ((partsOfCell vertices (.ofCells cells) c).flatMap fun p => [p.ends.1, p.ends.2]).Perm
      (((Numbering.ofCells cells).facesOfCell c).flatMap fun f =>
        (Numbering.ofCells cells).loop f ++ (Numbering.ofCells cells).loop f) := by
  rw [partsOfCell, dualParts, List.flatMap_assoc]
  refine List.Perm.flatMap_left _ fun f hf => ?_
  have hl := Numbering.loop_mem_of_mem_facesOfCell hf
  have hedges := @faceEdges_perm _ _ vertices cells f hl (hnd f hf) (hlen f hf)
  have hends : ∀ s ∈ cyclicPairs ((Numbering.ofCells cells).loop f),
      (Numbering.ofCells cells).ends ((Numbering.ofCells cells).edgeId (Edge.ofSide s)) =
        Edge.ofSide s :=
    fun s hs => Numbering.ends_edgeId (Numbering.ofSide_mem_edges hl hs)
  refine .trans ?_ (Loop.ends_sides_perm _)
  rw [List.flatMap_map]
  refine (hedges.flatMap_right fun e => [((Numbering.ofCells cells).ends e).1,
    ((Numbering.ofCells cells).ends e).2]).trans (.of_eq ?_)
  rw [List.flatMap_map]
  exact List.flatMap_congr fun s hs => by rw [hends s hs]

theorem mem_cellEdges {c e : Nat} : e ∈ (assemble vertices n).cellEdges.getD c [] ↔
    ∃ f ∈ n.facesOfCell c, e ∈ (assemble vertices n).faceEdges.getD f [] := by
  rw [cellEdges_getD, edgeRow, SparseRow.columns_gather, SparseRow.mem_sortedColumns, List.map_map,
    List.mem_map]
  constructor
  · rintro ⟨p, hp, rfl⟩
    obtain ⟨f, hf, e, he, rfl⟩ := mem_partsOfCell.1 hp
    exact ⟨f, hf, he⟩
  · rintro ⟨f, hf, he⟩
    exact ⟨_, mem_partsOfCell.2 ⟨f, hf, e, he, rfl⟩, rfl⟩

/-- The vertices of a cell are the ends of the edges of its faces. -/
theorem mem_cellVertices_iff_ends {c v : Nat} :
    v ∈ (assemble vertices n).cellVertices.getD c [] ↔
      ∃ f ∈ n.facesOfCell c, ∃ e ∈ (assemble vertices n).faceEdges.getD f [],
        v = (n.ends e).1 ∨ v = (n.ends e).2 := by
  rw [cellVertices_getD, vertexRow, SparseRow.columns_gather, SparseRow.mem_sortedColumns,
    List.map_flatMap, List.mem_flatMap]
  constructor
  · rintro ⟨p, hp, hv⟩
    obtain ⟨f, hf, e, he, rfl⟩ := mem_partsOfCell.1 hp
    exact ⟨f, hf, e, he, by simpa [dualPart, Numbering.ends] using hv⟩
  · rintro ⟨f, hf, e, he, hv⟩
    exact ⟨_, mem_partsOfCell.2 ⟨f, hf, e, he, rfl⟩, by simpa [dualPart, Numbering.ends] using hv⟩

/-- **The vertices of a cell are those of the loops of its faces.** -/
theorem mem_cellVertices {cells : List (List Loop)} {c v : Nat} :
    v ∈ (assemble vertices (.ofCells cells)).cellVertices.getD c [] ↔
      ∃ f ∈ (Numbering.ofCells cells).facesOfCell c, v ∈ (Numbering.ofCells cells).loop f := by
  rw [mem_cellVertices_iff_ends]
  constructor
  · rintro ⟨f, hf, e, he, hv⟩
    obtain ⟨s, hs, rfl⟩ := mem_faceEdges.1 he
    rw [Numbering.ends_edgeId
      (Numbering.ofSide_mem_edges (Numbering.loop_mem_of_mem_facesOfCell hf) hs)] at hv
    have hends : v = s.1 ∨ v = s.2 := by
      simp only [Edge.ofSide] at hv
      omega
    rcases hends with rfl | rfl
    · exact ⟨f, hf, fst_mem_of_mem_cyclicPairs hs⟩
    · exact ⟨f, hf, snd_mem_of_mem_cyclicPairs hs⟩
  · rintro ⟨f, hf, hv⟩
    obtain ⟨b, hs⟩ := exists_side_of_mem hv
    refine ⟨f, hf, _, mem_faceEdges.2 ⟨_, hs, rfl⟩, ?_⟩
    rw [Numbering.ends_edgeId
      (Numbering.ofSide_mem_edges (Numbering.loop_mem_of_mem_facesOfCell hf) hs)]
    simp only [Edge.ofSide]
    omega

/-! ## What the checks of a new mesh ensure -/

theorem checkCell_eq_ok {cell : List Loop} :
    checkCell cell = .ok () ↔ 4 ≤ cell.length ∧ ∀ l ∈ cell, 3 ≤ l.length := by
  have hunfold : checkCell cell = if cell.length < 4 then .error .tooFewFaces else
      cell.forM fun l => if l.length < 3 then .error .tooFewVertices else .ok () := by
    unfold checkCell
    split <;> rfl
  rw [hunfold, ite_error_eq_ok, forM_eq_ok, not_lt]
  simp only [ite_error_eq_ok, not_lt, and_true]

theorem checkCells_eq_ok {k : Nat} {cells : List (List Loop)} :
    checkCells k cells = .ok () ↔
      (∀ cell ∈ cells, 4 ≤ cell.length ∧ ∀ l ∈ cell, 3 ≤ l.length) ∧
        ∀ cell ∈ cells, ∀ l ∈ cell, ∀ v ∈ l, v < k := by
  have hall : (cells.all fun cell => cell.all fun l => l.all (· < k)) = true ↔
      ∀ cell ∈ cells, ∀ l ∈ cell, ∀ v ∈ l, v < k := by simp
  rw [checkCells, unit_bind_eq_ok, forM_eq_ok, ← hall]
  simp only [checkCell_eq_ok, throw_eq_error, pure_eq_ok]
  split <;> rename_i h <;> simp only [h, reduceCtorEq]

end PolyhedralMesh

namespace Numbering

variable {cells : List (List Loop)} {k : Nat}

theorem mem_cell_of_mem_loops {l : Loop} (h : l ∈ (ofCells cells).loops) :
    ∃ cell ∈ cells, l ∈ cell := by
  obtain ⟨cell, hcell, hl⟩ := List.mem_flatten.1 (mem_of_mem_firstSeen h)
  exact ⟨cell, hcell, hl⟩

theorem three_le_length_of_mem_loops (hcheck : PolyhedralMesh.checkCells k cells = .ok ())
    {l : Loop} (h : l ∈ (ofCells cells).loops) : 3 ≤ l.length := by
  obtain ⟨cell, hcell, hl⟩ := mem_cell_of_mem_loops h
  exact ((PolyhedralMesh.checkCells_eq_ok.1 hcheck).1 cell hcell).2 l hl

theorem vertex_lt_of_mem_loops (hcheck : PolyhedralMesh.checkCells k cells = .ok ())
    {l : Loop} (h : l ∈ (ofCells cells).loops) {v : Nat} (hv : v ∈ l) : v < k := by
  obtain ⟨cell, hcell, hl⟩ := mem_cell_of_mem_loops h
  exact (PolyhedralMesh.checkCells_eq_ok.1 hcheck).2 cell hcell l hl v hv

theorem four_le_length_facesOfCell (hcheck : PolyhedralMesh.checkCells k cells = .ok ()) {c : Nat}
    (hc : c < (ofCells cells).cellFaces.length) : 4 ≤ ((ofCells cells).facesOfCell c).length := by
  have hc' : c < cells.length := by simpa [ofCells] using hc
  have hcell := ((PolyhedralMesh.checkCells_eq_ok.1 hcheck).1 _ (List.getElem_mem hc')).1
  rw [facesOfCell, List.getD_eq_getElem _ _ hc]
  simpa [ofCells] using hcell

theorem lt_of_mem_faceEdges {f e : Nat} (hf : f < (ofCells cells).loops.length)
    {R : Type} [Scalar R] {vertices : List (Vec3 R)}
    (he : e ∈ (PolyhedralMesh.assemble vertices (ofCells cells)).faceEdges.getD f []) :
    e < (ofCells cells).edges.length := by
  obtain ⟨s, hs, rfl⟩ := PolyhedralMesh.mem_faceEdges.1 he
  exact edgeId_lt (ofSide_mem_edges (loop_mem hf) hs)

end Numbering

/-- **The tables of a new mesh are consistent.** -/
theorem PolyhedralMesh.consistent_of_build {R : Type} [Scalar R] {vertices : List (Vec3 R)}
    {cells : List (List Loop)} {m : PolyhedralMesh R} (hm : build vertices cells = .ok m) {c : Nat}
    (hc : c < m.cellCount) : m.Consistent c := by
  obtain ⟨hcheck, -, rfl⟩ := build_eq_ok.1 hm
  have hlt : c < (Numbering.ofCells cells).cellFaces.length := by
    simpa [MeshTables.cellCount, assemble] using hc
  have hface : ∀ f ∈ (assemble vertices (.ofCells cells)).cellFaces.getD c [],
      f < (Numbering.ofCells cells).loops.length := fun f hf =>
    Numbering.lt_of_mem_facesOfCell (mem_cellFaces.1 hf)
  exact {
    center_lt := by simpa [assemble] using hlt
    volume_lt := by simpa [assemble] using hlt
    vertices_lt := by simpa [assemble] using hlt
    edges_lt := by simpa [assemble] using hlt
    faces_lt := by simpa [assemble] using hlt
    dualVolumes_lt := by simpa [assemble] using hlt
    signs_lt := by simpa [assemble] using hlt
    length_signs := by rw [cellFaces_getD, cellFaceSigns_getD, SparseRow.length_values]
    vertex_lt := fun v hv => by
      obtain ⟨f, hf, hvf⟩ := mem_cellVertices.1 hv
      exact Numbering.vertex_lt_of_mem_loops hcheck (Numbering.loop_mem_of_mem_facesOfCell hf) hvf
    edge_lt := fun e he => by
      obtain ⟨f, hf, hef⟩ := mem_cellEdges.1 he
      exact Numbering.lt_of_mem_faceEdges (Numbering.lt_of_mem_facesOfCell hf) hef
    face_lt := fun f hf => by
      have := hface f hf
      simp only [assemble, faceGeometries, List.length_map]
      exact ⟨this, this, this, this⟩
    ends_mem := fun e he => by
      obtain ⟨f, hf, hef⟩ := mem_cellEdges.1 he
      exact ⟨mem_cellVertices_iff_ends.2 ⟨f, hf, e, hef, .inl rfl⟩,
        mem_cellVertices_iff_ends.2 ⟨f, hf, e, hef, .inr rfl⟩⟩
    faceEdges_mem := fun f hf e he => mem_cellEdges.2 ⟨f, mem_cellFaces.1 hf, he⟩ }

/-- The ends of an edge of a face are vertices of the face. -/
theorem PolyhedralMesh.ends_mem_loop {R : Type} [Scalar R] {vertices : List (Vec3 R)}
    {cells : List (List Loop)} {m : PolyhedralMesh R} (hm : build vertices cells = .ok m) {c f : Nat}
    (hf : f ∈ m.cellFaces.getD c []) {e : Nat} (he : e ∈ m.faceEdges.getD f []) :
    (m.ends e).1 ∈ (Numbering.ofCells cells).loop f ∧
      (m.ends e).2 ∈ (Numbering.ofCells cells).loop f := by
  obtain ⟨-, -, rfl⟩ := build_eq_ok.1 hm
  obtain ⟨s, hs, rfl⟩ := mem_faceEdges.1 he
  have hl := Numbering.loop_mem_of_mem_facesOfCell (mem_cellFaces.1 hf)
  have hends : (assemble vertices (.ofCells cells)).ends
      ((Numbering.ofCells cells).edgeId (Edge.ofSide s)) = Edge.ofSide s :=
    Numbering.ends_edgeId (Numbering.ofSide_mem_edges hl hs)
  have hfirst := fst_mem_of_mem_cyclicPairs hs
  have hsecond := snd_mem_of_mem_cyclicPairs hs
  rw [hends]
  rcases le_total s.1 s.2 with h | h
  · simp [Edge.ofSide, h, hfirst, hsecond]
  · simp [Edge.ofSide, h, hfirst, hsecond]

end Polyfield
