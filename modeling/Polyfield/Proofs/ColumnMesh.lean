import Mathlib.Data.List.Perm.Basic
import Polyfield.Proofs.CellPieces
import Polyfield.Proofs.ColumnNumbering
import Polyfield.Proofs.OutwardFaces

/-!
# Columns of cubes

The mesh of a column, over any kind of numbers: how many entities of each kind it has, and how the
cubes share faces.

* `Column.count_faces` : a face is listed by one cube, and those between two cubes by two;
* `Column.build_eq_ok` : every column can be built;
* `Column.Stacked` : cubes on top of each other; `Column.stacked` : a column consists of them.
-/

namespace Polyfield

open PolyhedralMesh

namespace Column

/-! ## Faces of the cubes -/

theorem mem_faces {k f : Nat} :
    f ∈ faces k ↔ f = 5 * k - 4 ∨ 5 * k + 1 ≤ f ∧ f ≤ 5 * k + 5 := by
  simp only [faces, List.mem_cons, List.not_mem_nil, or_false]
  omega

theorem faces_increasing (k : Nat) : (faces k).Pairwise (· < ·) := by
  simp only [faces, List.pairwise_cons, List.forall_mem_cons, List.not_mem_nil,
    IsEmpty.forall_iff, implies_true, List.Pairwise.nil, and_true]
  omega

theorem nodup_faces (k : Nat) : (faces k).Nodup := (faces_increasing k).imp fun h => h.ne

/-- Whether a face lies between two cubes of a column. -/
def isBetween (n f : Nat) : Bool := f % 5 = 1 ∧ f + 9 ≤ 5 * n

/-- **How often a face is listed**: twice between two cubes, and otherwise once. -/
theorem count_faces {n : Nat} (hn : 1 ≤ n) (f : Nat) : (numbering n).cellFaces.flatten.count f =
    if 5 * n < f then 0 else if isBetween n f then 2 else 1 := by
  have hcube : ∀ k, (faces k).count f = if f ∈ faces k then 1 else 0 := fun k => by
    rw [(nodup_faces k).count]
  induction n, hn using Nat.le_induction with
  | base =>
    have hfirst : (numbering 1).cellFaces.flatten = faces 0 := rfl
    rw [hfirst, hcube]
    simp only [mem_faces, isBetween, decide_eq_true_eq]
    split_ifs <;> omega
  | succ n hn ih =>
    have hsucc : (numbering (n + 1)).cellFaces.flatten.count f =
        (numbering n).cellFaces.flatten.count f + (faces n).count f := by
      simp [numbering, List.range_succ]
    rw [hsucc, ih, hcube]
    simp only [mem_faces, isBetween, decide_eq_true_eq]
    split_ifs <;> omega

theorem isListedOnce_eq {n f : Nat} (hn : 1 ≤ n) (hf : f ≤ 5 * n) :
    (numbering n).isListedOnce f = !isBetween n f := by
  rw [Numbering.isListedOnce, count_faces hn, if_neg (by omega)]
  cases isBetween n f <;> rfl

/-- One face fewer than there are cubes lie between two of them. -/
theorem length_filter_isBetween (n : Nat) :
    ((List.range (5 * n + 1)).filter (isBetween n)).length = n - 1 := by
  have hinj : Function.Injective fun k => 5 * k + 1 := fun i j h => by
    dsimp only at h
    omega
  have hperm : ((List.range (5 * n + 1)).filter (isBetween n)).Perm
      ((List.range (n - 1)).map fun k => 5 * k + 1) := by
    refine (List.perm_ext_iff_of_nodup (List.nodup_range.filter _)
      (List.nodup_range.map hinj)).2 fun f => ?_
    simp only [List.mem_filter, List.mem_range, List.mem_map, isBetween, decide_eq_true_eq]
    constructor
    · rintro ⟨hlt, hmod, hle⟩
      exact ⟨f / 5, by omega, by omega⟩
    · rintro ⟨k, hk, rfl⟩
      omega
  rw [hperm.length_eq, List.length_map, List.length_range]

theorem length_filter_isListedOnce {n : Nat} (hn : 1 ≤ n) :
    ((List.range (5 * n + 1)).filter (numbering n).isListedOnce).length = 4 * n + 2 := by
  have hsplit := List.length_eq_length_filter_add (l := List.range (5 * n + 1)) (isBetween n)
  have hcongr : (List.range (5 * n + 1)).filter (numbering n).isListedOnce =
      (List.range (5 * n + 1)).filter fun f => !isBetween n f :=
    List.filter_congr fun f hf => isListedOnce_eq hn (by simpa [Nat.lt_succ_iff] using hf)
  rw [length_filter_isBetween, List.length_range] at hsplit
  rw [hcongr]
  omega

/-! ## Construction -/

theorem length_columnVertices (R : Type) [Scalar R] (n : Nat) :
    (columnVertices n : List (Vec3 R)).length = 4 * (n + 1) := by
  simp [columnVertices, squareAt, List.length_flatMap, Nat.mul_comm]

/-- The mesh of a column. -/
def mesh (R : Type) [Scalar R] (n : Nat) : PolyhedralMesh R :=
  assemble (columnVertices n) (.ofCells (columnCells n))

variable {R : Type} [Scalar R]

/-- **Every column can be built.** -/
theorem build_eq_ok (n : Nat) : column n = .ok (mesh R n) := by
  have hcube : ∀ cell ∈ columnCells n, cell.length = 6 ∧ ∀ l ∈ cell, l.length = 4 := by
    intro cell hcell
    obtain ⟨k, -, rfl⟩ := List.mem_map.1 hcell
    exact ⟨rfl, fun l hl => (square_of_mem_hexahedron hl).2⟩
  refine PolyhedralMesh.build_eq_ok.2 ⟨checkCells_eq_ok.2 ⟨fun cell hcell => ?_,
    fun cell hcell l hl v hv => ?_⟩, Numbering.signsFit_of_length_le (a := 4) (b := 6) ?_ ?_
    (by decide) (by decide), rfl⟩
  · obtain ⟨hfaces, hsides⟩ := hcube cell hcell
    exact ⟨by omega, fun l hl => by have := hsides l hl; omega⟩
  · rw [length_columnVertices]
    exact lt_of_mem_columnCells (List.mem_flatten_of_mem hcell hl) hv
  · intro l hl
    obtain ⟨cell, hcell, hl⟩ := Numbering.mem_cell_of_mem_loops hl
    exact ((hcube cell hcell).2 l hl).le
  · intro ids hids
    obtain ⟨cell, hcell, rfl⟩ := List.mem_map.1 hids
    rw [List.length_map]
    exact (hcube cell hcell).1.le

/-! ## The cubes of a column -/

/-- Every vertex of a cube belongs to three of its faces. -/
theorem count_hexahedron {v u : Nat} (hle : v ≤ u) (hlt : u < v + 8) :
    (hexahedron v).flatten.count u = 3 := by
  have hzero : ∀ i < 8, (hexahedron 0).flatten.count i = 3 := by decide
  obtain ⟨i, rfl⟩ := Nat.exists_eq_add_of_le hle
  rw [hexahedron_eq_map, ← List.map_flatten,
    List.count_map_of_injective _ _ (add_right_injective v)]
  exact hzero i (by omega)

/-- The loops of the faces of a cube have the vertices of the loops that it gives. -/
theorem flatten_loops_perm (k : Nat) :
    (bottomLoop k :: addedLoops (4 * k)).flatten.Perm (hexahedron (4 * k)).flatten :=
  (bottomLoop_perm k).append_right (addedLoops (4 * k)).flatten

/-- The edges of the faces of a cube are those of its top and its sides. -/
theorem mem_sideEdges_loops {k : Nat} {e : Edge} :
    e ∈ sideEdges (bottomLoop k :: addedLoops (4 * k)) ↔
      e ∈ firstSeen id (sideEdges (addedLoops (4 * k))) := by
  have hsplit : e ∈ sideEdges (bottomLoop k :: addedLoops (4 * k)) ↔
      e ∈ bottomEdges (4 * k) ∨ e ∈ sideEdges (addedLoops (4 * k)) := by
    rw [← (sides_bottomLoop_perm k).mem_iff, ← List.mem_append]
    simp only [sideEdges, List.flatMap_cons, List.map_append]
  rw [hsplit, mem_firstSeen_id]
  refine or_iff_right_of_imp fun he => ?_
  rw [← mem_firstSeen_id, firstSeen_addedLoops]
  simp only [bottomEdges, List.mem_cons, List.not_mem_nil] at he ⊢
  tauto

section Cube

variable {n k : Nat} (hk : k < n)
include hk

/-- **The loops of the faces of a cube.** -/
theorem map_loop_faces :
    (faces k).map (numbering n).loop = bottomLoop k :: addedLoops (4 * k) := by
  have hadded : ∀ i < 5, (numbering n).loop (5 * k + i + 1) = (addedLoops (4 * k)).getD i [] :=
    fun i hi => by rw [Numbering.loop, List.getD, getElem?_loops hk hi, List.getD]
  have hbottom : (numbering n).loop (5 * k - 4) = bottomLoop k := by
    rw [Numbering.loop, List.getD, getElem?_bottom hk, Option.getD_some]
  simp only [faces, List.map_cons, List.map_nil, hbottom]
  rw [hadded 0 (by decide), hadded 1 (by decide), hadded 2 (by decide), hadded 3 (by decide),
    hadded 4 (by decide)]
  rfl

theorem facesOfCell_eq : (Numbering.ofCells (columnCells n)).facesOfCell k = faces k := by
  have hn : 1 ≤ n := by omega
  rw [ofCells_columnCells hn, Numbering.facesOfCell, numbering, List.getD,
    List.getElem?_map, List.getElem?_range hk]
  rfl

/-- The loops of the faces of a cube, face by face. -/
theorem exists_loop_iff (p : Loop → Prop) :
    (∃ f ∈ (Numbering.ofCells (columnCells n)).facesOfCell k,
      p ((Numbering.ofCells (columnCells n)).loop f)) ↔
        ∃ l ∈ bottomLoop k :: addedLoops (4 * k), p l := by
  have hn : 1 ≤ n := by omega
  rw [facesOfCell_eq hk, ofCells_columnCells hn, ← map_loop_faces hk]
  simp only [List.mem_map, exists_exists_and_eq_and]

/-- The loops of the faces of a cube are squares. -/
theorem nodup_loop {f : Nat} (hf : f ∈ (Numbering.ofCells (columnCells n)).facesOfCell k) :
    ((Numbering.ofCells (columnCells n)).loop f).Nodup ∧
      ((Numbering.ofCells (columnCells n)).loop f).length = 4 := by
  obtain ⟨l, hl, hloop⟩ := (exists_loop_iff hk fun l => l =
    (Numbering.ofCells (columnCells n)).loop f).1 ⟨f, hf, rfl⟩
  rw [← hloop]
  rcases List.mem_cons.1 hl with rfl | hl
  · rw [(bottomLoop_perm k).nodup_iff, (bottomLoop_perm k).length_eq]
    exact square_of_mem_hexahedron List.mem_cons_self
  · exact square_of_mem_hexahedron (List.mem_cons_of_mem _ hl)

theorem mem_loops {l : Loop} (hl : l ∈ bottomLoop k :: addedLoops (4 * k)) :
    l ∈ (Numbering.ofCells (columnCells n)).loops := by
  obtain ⟨f, hf, rfl⟩ := (exists_loop_iff hk fun l' => l' = l).2 ⟨l, hl, rfl⟩
  exact Numbering.loop_mem_of_mem_facesOfCell hf

theorem numberedCell : NumberedCell (Numbering.ofCells (columnCells n)).loops (mesh R n) k
    (hexahedron (4 * k)) := by
  have hcell : (columnCells n)[k]? = some (hexahedron (4 * k)) := by
    rw [columnCells, List.getElem?_map, List.getElem?_range hk, Option.map_some]
  exact PolyhedralMesh.numberedCell hcell

/-- The faces of a cube. -/
theorem cellFaces_eq : (mesh R n).cellFaces.getD k [] = faces k := by
  refine (numberedCell hk).faces.increasing.eq_of_mem_iff (faces_increasing k) fun f => ?_
  rw [mesh, mem_cellFaces, facesOfCell_eq hk]

/-- The vertices of a cube. -/
theorem cellVertices_eq : (mesh R n).cellVertices.getD k [] = List.range' (4 * k) 8 := by
  have hvertices := (numberedCell (R := R) hk).vertices
  refine hvertices.increasing.eq_of_mem_iff List.pairwise_lt_range' fun v => ?_
  rw [hvertices.mem_iff, ← List.mem_flatten, List.mem_range'_1]
  constructor
  · intro hv
    obtain ⟨l, hl, hv⟩ := List.mem_flatten.1 hv
    exact bounds_of_mem_hexahedron hl hv
  · rintro ⟨hle, hlt⟩
    exact List.count_pos_iff.1 (by rw [count_hexahedron hle hlt]; decide)

/-- The edges of a cube are those of its top and its sides. -/
theorem cellEdges_perm : ((mesh R n).cellEdges.getD k []).Perm
    ((firstSeen id (sideEdges (addedLoops (4 * k)))).map
      (Numbering.ofCells (columnCells n)).edgeId) := by
  have hrow : ((mesh R n).cellEdges.getD k []).Nodup :=
    (numberedCell hk).edges.increasing.imp fun h => h.ne
  have hedge : ∀ e ∈ firstSeen id (sideEdges (addedLoops (4 * k))),
      e ∈ (Numbering.ofCells (columnCells n)).edges := by
    intro e he
    obtain ⟨s, hs, rfl⟩ := List.mem_map.1 (mem_of_mem_firstSeen he)
    obtain ⟨l, hl, hs⟩ := List.mem_flatMap.1 hs
    exact Numbering.ofSide_mem_edges (mem_loops hk (List.mem_cons_of_mem _ hl)) hs
  have hnd : ((firstSeen id (sideEdges (addedLoops (4 * k)))).map
      (Numbering.ofCells (columnCells n)).edgeId).Nodup := by
    refine List.Nodup.map_on (fun d hd e he heq => ?_) (by simpa using nodup_firstSeen id _)
    rw [← Numbering.ends_edgeId (hedge d hd), heq, Numbering.ends_edgeId (hedge e he)]
  refine (List.perm_ext_iff_of_nodup hrow hnd).2 fun e => ?_
  rw [mesh, mem_cellEdges, List.mem_map]
  simp only [mem_faceEdges, ← mem_sideEdges_loops]
  rw [exists_loop_iff hk fun l => ∃ s ∈ cyclicPairs l,
    (Numbering.ofCells (columnCells n)).edgeId (Edge.ofSide s) = e]
  simp only [sideEdges, List.mem_map, List.mem_flatMap]
  constructor
  · rintro ⟨l, hl, s, hs, rfl⟩
    exact ⟨_, ⟨s, ⟨l, hl, hs⟩, rfl⟩, rfl⟩
  · rintro ⟨_, ⟨s, ⟨l, hl, hs⟩, rfl⟩, rfl⟩
    exact ⟨l, hl, s, hs, rfl⟩

theorem length_cellEdges : ((mesh R n).cellEdges.getD k []).length = 12 := by
  rw [(cellEdges_perm hk).length_eq, List.length_map, firstSeen_addedLoops]
  rfl

theorem length_cellVertices : ((mesh R n).cellVertices.getD k []).length = 8 := by
  rw [cellVertices_eq hk, List.length_range']

theorem shape_eq : (mesh R n).shape k = .hexa := by
  rw [MeshTables.shape, length_cellVertices hk, length_cellEdges hk, cellFaces_eq hk]
  rfl

end Cube

/-! ## All cubes -/

theorem length_cellFaces (n : Nat) :
    (Numbering.ofCells (columnCells n)).cellFaces.length = n := by
  simp [Numbering.ofCells, columnCells]

theorem cellCount_eq (n : Nat) : (mesh R n).cellCount = n := by
  simp [MeshTables.cellCount, mesh, assemble, length_cellFaces]

theorem consistent {n k : Nat} (hk : k < n) : (mesh R n).Consistent k :=
  consistent_of_build (build_eq_ok n) (by rwa [cellCount_eq])

theorem length_loops (n : Nat) : (numbering n).loops.length = 5 * n + 1 := by
  simp [numbering, addedLoops, hexahedron, List.length_flatMap, Nat.mul_comm]

theorem length_edges (n : Nat) : (numbering n).edges.length = 8 * n + 4 := by
  simp [numbering, addedEdges, List.length_flatMap, Nat.mul_comm]

/-- Cubes on top of each other: their numbers of entities, and how they are connected. -/
structure Stacked (n : Nat) (m : PolyhedralMesh R) : Prop where
  cellCount : m.cellCount = n
  vertexCount : m.vertexCount = 4 * (n + 1)
  edgeCount : m.edgeCount = 8 * n + 4
  faceCount : m.faceCount = 5 * n + 1
  boundaryFaceCount : m.boundaryFaces.length = 4 * n + 2
  /-- The boundary faces are those that a single cube lists. -/
  boundary : ListsBoundary (columnCells n) m
  /-- Neighbours share one face, which does not lie on the boundary. -/
  neighbours : ∀ k, k + 1 < n → ∃ f, m.isBoundaryFace f = false ∧
    ∀ g, g ∈ m.cellFaces.getD k [] ∧ g ∈ m.cellFaces.getD (k + 1) [] ↔ g = f
  /-- Cubes that are further apart share none. -/
  apart : ∀ j k, j + 1 < k → k < n →
    (m.cellFaces.getD j []).Disjoint (m.cellFaces.getD k [])
  /-- Every cube has the entities of a hexahedron, and that is what its caches take it for. -/
  entities : ∀ k < n, (m.cellVertices.getD k []).length = 8 ∧
    (m.cellEdges.getD k []).length = 12 ∧ (m.cellFaces.getD k []).length = 6
  shape : ∀ k < n, ∀ ks : List Capability, ∃ cm : CellCache R,
    CellCache.build m.toMeshTables k (.ofList ks) = .ok cm ∧ cm.shape = .hexa

theorem isBoundaryFace_eq_false {k : Nat} (hk : k + 1 < n) :
    (mesh R n).isBoundaryFace (5 * k + 1) = false := by
  have hn : 1 ≤ n := by omega
  have hbetween : isBetween n (5 * k + 1) = true := by
    simp only [isBetween, decide_eq_true_eq]
    omega
  rw [← Bool.not_eq_true, mesh, (listsBoundary_assemble _ _).isBoundaryFace_iff,
    mem_boundaryFaces_assemble, ofCells_columnCells hn, isListedOnce_eq hn (by omega), hbetween]
  exact fun h => Bool.false_ne_true h.2

/-- **A column consists of cubes on top of each other.** -/
theorem stacked (hn : 1 ≤ n) : Stacked n (mesh R n) where
  cellCount := cellCount_eq n
  vertexCount := length_columnVertices R n
  edgeCount := by rw [mesh, ofCells_columnCells hn]; exact length_edges n
  faceCount := by
    rw [mesh, ofCells_columnCells hn, ← length_loops]
    simp [MeshTables.faceCount, assemble, faceGeometries]
  boundaryFaceCount := by
    rw [mesh, ofCells_columnCells hn, ← length_filter_isListedOnce hn, ← length_loops]
    rfl
  boundary := listsBoundary_assemble _ _
  neighbours k hk := by
    refine ⟨5 * k + 1, isBoundaryFace_eq_false hk, fun g => ?_⟩
    rw [cellFaces_eq (by omega), cellFaces_eq hk, mem_faces, mem_faces]
    omega
  apart j k hjk hk f hj hf := by
    rw [cellFaces_eq (by omega), mem_faces] at hj
    rw [cellFaces_eq hk, mem_faces] at hf
    omega
  entities k hk :=
    ⟨length_cellVertices hk, length_cellEdges hk, by rw [cellFaces_eq hk]; rfl⟩
  shape k hk ks := ⟨_, CellCache.build_eq_ofTables (consistent hk)
    (CapabilitySet.closed_ofList ks), shape_eq hk⟩

end Column

end Polyfield
