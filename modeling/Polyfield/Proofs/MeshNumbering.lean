import Mathlib.Data.Sym.Sym2
import Polyfield.Proofs.ExactArithmetic
import Polyfield.Proofs.FirstOccurrences
import Polyfield.Proofs.Incidence

/-!
# Numbering of a new mesh

A mesh is given by the loops of its cells.  Its faces are the distinct sorted vertex lists of the
loops, and its edges the distinct pairs of neighbours in the first loop of each face; both are
numbered in the order in which they first occur.  The rows of the connectivity list the numbers of
their entities in increasing order.

* `Lists` : a row holds the numbers with a property, in increasing order;
* `Numbering.mem_facesOfCell_iff` : the faces of a cell are those with the keys of its loops;
* `Numbering.firstOccurrences_edges` : the edges are numbered in the order of first occurrence;
* `PolyhedralMesh.NumberedCell`, `PolyhedralMesh.Numbered` : what the tables of a mesh say about
  the cells it is made from;
* `PolyhedralMesh.numbered_of_checkCells` : a new mesh is numbered so.
-/

namespace Polyfield

/-- The numbers with a property, in increasing order. -/
structure Lists (row : List Nat) (p : Nat → Prop) : Prop where
  increasing : row.Pairwise (· < ·)
  mem_iff : ∀ j, j ∈ row ↔ p j

theorem SparseRow.lists_columns_gather {V : Type} (sum : List V → V) (entries : List (Nat × V)) :
    Lists (columns (gather sum entries)) fun j => j ∈ entries.map Prod.fst where
  increasing := columns_gather sum entries ▸ sorted_sortedColumns entries
  mem_iff j := by rw [columns_gather, mem_sortedColumns]

/-- The unordered pair of the ends of a side or an edge. -/
def Edge.pair (s : Nat × Nat) : Sym2 Nat := s(s.1, s.2)

@[simp] theorem Edge.pair_ofSide (s : Nat × Nat) : Edge.pair (Edge.ofSide s) = Edge.pair s := by
  obtain ⟨a, b⟩ := s
  simp only [pair, ofSide, Sym2.eq_iff]
  omega

theorem Edge.pair_eq_iff {s t : Nat × Nat} :
    Edge.pair s = Edge.pair t ↔ Edge.ofSide s = Edge.ofSide t := by
  rw [Edge.ofSide_eq_iff]
  exact Sym2.mk_eq_mk_iff

theorem Edge.ofSide_fst_le (s : Nat × Nat) : (Edge.ofSide s).1 ≤ (Edge.ofSide s).2 := by
  simp only [ofSide]
  omega

/-- In a list without duplicates, the position of an element is where it stands. -/
theorem idxOf_eq_iff_getElem? {κ : Type} [BEq κ] [LawfulBEq κ] {ks : List κ} (hnd : ks.Nodup)
    {k : κ} (hk : k ∈ ks) {i : Nat} : ks.idxOf k = i ↔ ks[i]? = some k := by
  have hlt := List.idxOf_lt_length_of_mem hk
  constructor
  · rintro rfl
    rw [List.getElem?_eq_getElem hlt, List.getElem_idxOf]
  · intro h
    obtain ⟨hi, rfl⟩ := List.getElem?_eq_some_iff.1 h
    exact hnd.getElem_inj_iff.1 (List.getElem_idxOf hlt)

/-! ## Faces and edges by number -/

namespace Numbering

variable {cells : List (List Loop)}

theorem mem_keys {c : Nat} {cell : List Loop} (hc : cells[c]? = some cell) {l : Loop}
    (hl : l ∈ cell) : l.key ∈ (ofCells cells).loops.map Loop.key :=
  key_mem_firstSeen (List.mem_flatten_of_mem (List.mem_of_getElem? hc) hl)

theorem facesOfCell_eq {c : Nat} {cell : List Loop} (hc : cells[c]? = some cell) :
    (ofCells cells).facesOfCell c =
      cell.map fun l => ((ofCells cells).loops.map Loop.key).idxOf l.key := by
  simp [facesOfCell, ofCells, List.getD, hc]

/-- **The faces of a cell are those with the vertices of one of its loops.** -/
theorem mem_facesOfCell_iff {c : Nat} {cell : List Loop} (hc : cells[c]? = some cell) {f : Nat} :
    f ∈ (ofCells cells).facesOfCell c ↔
      ∃ l ∈ cell, ((ofCells cells).loops[f]?).map Loop.key = some l.key := by
  have hnd : ((ofCells cells).loops.map Loop.key).Nodup := nodup_firstSeen Loop.key cells.flatten
  rw [facesOfCell_eq hc, List.mem_map]
  refine exists_congr fun l => and_congr_right fun hl => ?_
  rw [idxOf_eq_iff_getElem? hnd (mem_keys hc hl), List.getElem?_map]

/-- The vertices of the faces of a cell are the vertices of its loops. -/
theorem exists_mem_loop_iff {c : Nat} {cell : List Loop} (hc : cells[c]? = some cell) {v : Nat} :
    (∃ f ∈ (ofCells cells).facesOfCell c, v ∈ (ofCells cells).loop f) ↔ ∃ l ∈ cell, v ∈ l := by
  have hloop : ∀ {f : Nat} {l : Loop}, ((ofCells cells).loops[f]?).map Loop.key = some l.key →
      (v ∈ (ofCells cells).loop f ↔ v ∈ l) := by
    intro f l h
    obtain ⟨l', hl', hkey⟩ := Option.map_eq_some_iff.1 h
    rw [loop, List.getD, hl', Option.getD_some, ← (List.mergeSort_perm l' _).mem_iff,
      ← (List.mergeSort_perm l _).mem_iff]
    exact iff_of_eq (congrArg (v ∈ ·) hkey)
  constructor
  · rintro ⟨f, hf, hv⟩
    obtain ⟨l, hl, hkey⟩ := (mem_facesOfCell_iff hc).1 hf
    exact ⟨l, hl, (hloop hkey).1 hv⟩
  · rintro ⟨l, hl, hv⟩
    obtain ⟨f, hlt, hf⟩ := List.getElem_of_mem (mem_keys hc hl)
    have hkey : ((ofCells cells).loops[f]?).map Loop.key = some l.key := by
      rw [← List.getElem?_map, List.getElem?_eq_getElem hlt, hf]
    exact ⟨f, (mem_facesOfCell_iff hc).2 ⟨l, hl, hkey⟩, (hloop hkey).2 hv⟩

/-- **The edges are the pairs of neighbours in the loops of the faces, in the order in which they
first occur.** -/
theorem firstOccurrences_edges (cells : List (List Loop)) :
    FirstOccurrences ((ofCells cells).edges.map Edge.pair)
      (((ofCells cells).loops.flatMap cyclicPairs).map Edge.pair) := by
  set sides := (ofCells cells).loops.flatMap cyclicPairs with hsides
  have hedges := firstOccurrences_firstSeen id (sides.map Edge.ofSide)
  rw [List.map_id, List.map_id] at hedges
  have hinj : ∀ e ∈ sides.map Edge.ofSide, ∀ e' ∈ sides.map Edge.ofSide,
      Edge.pair e = Edge.pair e' → e = e' := by
    intro e he e' he' h
    obtain ⟨s, -, rfl⟩ := List.mem_map.1 he
    obtain ⟨t, -, rfl⟩ := List.mem_map.1 he'
    rwa [Edge.pair_ofSide, Edge.pair_ofSide, Edge.pair_eq_iff] at h
  have hpairs := hedges.map hinj
  rw [List.map_map] at hpairs
  simpa [Function.comp_def, ofCells, hsides] using hpairs

theorem edges_ordered {e : Edge} (he : e ∈ (ofCells cells).edges) : e.1 ≤ e.2 := by
  obtain ⟨l, -, s, -, rfl⟩ := exists_side_of_mem_edges he
  exact Edge.ofSide_fst_le s

/-- The number of an edge of a loop is where its pair stands. -/
theorem edgeId_eq_iff {l : Loop} (hl : l ∈ (ofCells cells).loops) {s : Nat × Nat}
    (hs : s ∈ cyclicPairs l) {e : Nat} : (ofCells cells).edgeId (Edge.ofSide s) = e ↔
      ((ofCells cells).edges[e]?).map Edge.pair = some (Edge.pair s) := by
  rw [edgeId, idxOf_eq_iff_getElem? (nodup_edges cells) (ofSide_mem_edges hl hs)]
  constructor
  · intro h
    rw [h, Option.map_some, Edge.pair_ofSide]
  · intro h
    obtain ⟨e', he', hpair⟩ := Option.map_eq_some_iff.1 h
    obtain ⟨l', -, t, -, rfl⟩ := exists_side_of_mem_edges (List.mem_of_getElem? he')
    rw [he', Edge.pair_eq_iff.1 (Edge.pair_ofSide t ▸ hpair)]

end Numbering

/-! ## Tables of a new mesh -/

namespace PolyhedralMesh

variable {R : Type} [Scalar R] {vertices : List (Vec3 R)} {cells : List (List Loop)}

omit [Scalar R] in
/-- What the tables of a mesh say about a cell made from some loops, given the loops of the
faces. -/
structure NumberedCell (loops : List Loop) (m : PolyhedralMesh R) (c : Nat) (cell : List Loop) :
    Prop where
  /-- The faces of the cell are those with the vertices of its loops. -/
  faces : Lists (m.cellFaces.getD c []) fun f =>
    ∃ l ∈ cell, (loops[f]?).map Loop.key = some l.key
  /-- The edges of the cell are those of its faces. -/
  edges : Lists (m.cellEdges.getD c []) fun e =>
    ∃ f ∈ m.cellFaces.getD c [], e ∈ m.faceEdges.getD f []
  /-- The vertices of the cell are those of its loops. -/
  vertices : Lists (m.cellVertices.getD c []) fun v => ∃ l ∈ cell, v ∈ l
  length_dualVolumes :
    (m.cellDualVolumes.getD c []).length = (m.cellVertices.getD c []).length
  length_dualFaces : (m.cellDualFaces.getD c []).length = (m.cellEdges.getD c []).length

/-- What the tables of a mesh say about the vertices and cells it is made from, given the loops of
the faces. -/
structure Numbered (vertices : List (Vec3 R)) (cells : List (List Loop)) (loops : List Loop)
    (m : PolyhedralMesh R) : Prop where
  points : m.vertexPoints = vertices
  /-- The faces are the distinct sorted vertex lists, in the order in which they first occur. -/
  keys : FirstOccurrences (loops.map Loop.key) (cells.flatten.map Loop.key)
  /-- The loop of a face is the first one given for it. -/
  first : ∀ l ∈ loops, cells.flatten.find? (fun l' => l'.key = l.key) = some l
  centers : m.faceCenters = loops.map fun l => (Polygon.geometry (corners vertices l)).center
  normals : m.faceNormals = loops.map fun l => (Polygon.geometry (corners vertices l)).unit
  areas : m.faceAreas = loops.map fun l => (Polygon.geometry (corners vertices l)).measure
  /-- The edges are the distinct pairs of neighbours in the loops of the faces, in the order in
  which they first occur. -/
  pairs : FirstOccurrences (m.edges.map Edge.pair) ((loops.flatMap cyclicPairs).map Edge.pair)
  ordered : ∀ e ∈ m.edges, e.1 ≤ e.2
  length_faceEdges : m.faceEdges.length = loops.length
  /-- The edges of a face are those of the sides of its loop. -/
  faceEdges : ∀ f l, loops[f]? = some l → Lists (m.faceEdges.getD f []) fun e =>
    ∃ s ∈ cyclicPairs l, (m.edges[e]?).map Edge.pair = some (Edge.pair s)
  cellCount : m.cellCount = cells.length
  length_cells : ∀ k ∈ [m.cellFaces.length, m.cellEdges.length, m.cellVertices.length,
    m.cellDualVolumes.length, m.cellDualFaces.length], k = cells.length
  cells : ∀ c cell, cells[c]? = some cell → NumberedCell loops m c cell

theorem lists_faceEdges {f : Nat} {l : Loop} (hf : (Numbering.ofCells cells).loops[f]? = some l) :
    Lists ((assemble vertices (.ofCells cells)).faceEdges.getD f []) fun e => ∃ s ∈ cyclicPairs l,
      ((assemble vertices (.ofCells cells)).edges[e]?).map Edge.pair = some (Edge.pair s) where
  increasing := by
    rw [faceEdges_getD]
    exact (SparseRow.lists_columns_gather _ _).increasing
  mem_iff e := by
    have hloop : (Numbering.ofCells cells).loop f = l := by rw [Numbering.loop, List.getD, hf]; rfl
    rw [mem_faceEdges, hloop]
    exact exists_congr fun s => and_congr_right fun hs =>
      Numbering.edgeId_eq_iff (List.mem_of_getElem? hf) hs

theorem numberedCell {c : Nat} {cell : List Loop} (hc : cells[c]? = some cell) :
    NumberedCell (Numbering.ofCells cells).loops (assemble vertices (.ofCells cells)) c cell where
  faces := {
    increasing := by
      rw [cellFaces_getD]
      exact (SparseRow.lists_columns_gather _ _).increasing
    mem_iff := fun f => by rw [mem_cellFaces, Numbering.mem_facesOfCell_iff hc] }
  edges := {
    increasing := by
      rw [cellEdges_getD]
      exact (SparseRow.lists_columns_gather _ _).increasing
    mem_iff := fun e => by simp only [mem_cellEdges, mem_cellFaces] }
  vertices := {
    increasing := by
      rw [cellVertices_getD]
      exact (SparseRow.lists_columns_gather _ _).increasing
    mem_iff := fun v => by rw [mem_cellVertices, Numbering.exists_mem_loop_iff hc] }
  length_dualVolumes := by rw [cellDualVolumes_getD, cellVertices_getD, SparseRow.length_values]
  length_dualFaces := by rw [cellDualFaces_getD, cellEdges_getD, SparseRow.length_values]

theorem numbered (vertices : List (Vec3 R)) (cells : List (List Loop)) :
    Numbered vertices cells (Numbering.ofCells cells).loops (assemble vertices (.ofCells cells))
    where
  points := rfl
  keys := firstOccurrences_firstSeen Loop.key cells.flatten
  first _ hl := find?_of_mem_firstSeen hl
  centers := by simp [assemble, faceGeometries]
  normals := by simp [assemble, faceGeometries]
  areas := by simp [assemble, faceGeometries]
  pairs := Numbering.firstOccurrences_edges cells
  ordered _ he := Numbering.edges_ordered he
  length_faceEdges := by simp [assemble]
  faceEdges _ _ hf := lists_faceEdges hf
  cellCount := by simp [assemble, MeshTables.cellCount, Numbering.ofCells]
  length_cells := by simp [assemble, Numbering.ofCells]
  cells _ _ hc := numberedCell hc

/-- **Numbering of a new mesh.**  From vertices and cells that pass the checks a mesh is built,
unless bytes cannot hold its signs, and its tables number the faces and edges in the order in which
they first occur. -/
theorem numbered_of_checkCells (h : checkCells vertices.length cells = .ok ()) :
    (build vertices cells = .ok (assemble vertices (.ofCells cells)) ∨
      build vertices cells = .error .signOverflow) ∧
    Numbered vertices cells (Numbering.ofCells cells).loops
      (assemble vertices (.ofCells cells)) := by
  refine ⟨?_, numbered vertices cells⟩
  by_cases hfit : (Numbering.ofCells cells).signsFit = true
  · exact .inl (build_eq_ok.2 ⟨h, hfit, rfl⟩)
  · refine .inr ?_
    rw [build, h, ok_bind, if_neg hfit]
    rfl

end PolyhedralMesh

/-- Two tetrahedra that share a face, each with a loop of its own for it. -/
theorem numbered_twoTetrahedra :
    let points : List (Vec3 ℝ) := [0, ⟨1, 0, 0⟩, ⟨0, 1, 0⟩, ⟨0, 0, 1⟩, ⟨1, 1, 1⟩]
    let cells := [[[0, 2, 1], [0, 1, 3], [0, 3, 2], [1, 2, 3]],
      [[3, 2, 1], [1, 2, 4], [2, 3, 4], [3, 1, 4]]]
    PolyhedralMesh.checkCells points.length cells = .ok () ∧
      ((PolyhedralMesh.build points cells =
          .ok (PolyhedralMesh.assemble points (.ofCells cells)) ∨
        PolyhedralMesh.build points cells = .error .signOverflow) ∧
      PolyhedralMesh.Numbered points cells (Numbering.ofCells cells).loops
        (PolyhedralMesh.assemble points (.ofCells cells))) := by
  intro points cells
  have hcheck : PolyhedralMesh.checkCells points.length cells = .ok () :=
    PolyhedralMesh.checkCells_eq_ok.2 (by decide)
  exact ⟨hcheck, PolyhedralMesh.numbered_of_checkCells hcheck⟩

end Polyfield
