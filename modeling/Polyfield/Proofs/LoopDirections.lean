import Polyfield.Proofs.EdgeChains
import Polyfield.Proofs.RegivenLoops
import Polyfield.Proofs.TetrahedronCell

/-!
# The direction and start of a loop

What a mesh is does not depend on how the loops of its faces are written.  Only the first loop of a
face is read, so the others may name its vertices in any order.  If first loops are turned, the
edges get other numbers, the normals of faces with a reversed loop point to the other side and
their orientations change with them, and all else stays (`SameUpToEdges`, `RotatedFace`,
`ReversedFace`).  This needs first loops that walk at most 127 times along each of their edges.
The directions along an edge are added up in a byte, and those of a loop that walks along it more
often may fit as the loop is given, and no longer once it is turned.

* `PolyhedralMesh.loop_directions` : both statements, and what is refused without the bound;
* `PolyhedralMesh.build_windingLoop` : a loop that walks along an edge 128 times, downwards, which
  bytes can still hold; they cannot once it is reversed.
-/

namespace Polyfield

namespace PolyhedralMesh

section Definitions

variable {R : Type}

/-- The edges of a cell, each with its dual face. -/
def dualRow (m : PolyhedralMesh R) (c : Nat) : List (Nat × Vec3 R) :=
  (m.cellEdges.getD c []).zip (m.cellDualFaces.getD c [])

/-- One mesh is another with other numbers for its edges, as far as its faces do not depend on the
side they are seen from. -/
structure SameUpToEdges (σ : Nat → Nat) (m m' : PolyhedralMesh R) : Prop where
  vertexPoints : m'.vertexPoints = m.vertexPoints
  faceCenters : m'.faceCenters = m.faceCenters
  faceAreas : m'.faceAreas = m.faceAreas
  cellCenters : m'.cellCenters = m.cellCenters
  cellVolumes : m'.cellVolumes = m.cellVolumes
  cellVertices : m'.cellVertices = m.cellVertices
  cellDualVolumes : m'.cellDualVolumes = m.cellDualVolumes
  cellFaces : m'.cellFaces = m.cellFaces
  boundaryFaces : m'.boundaryFaces = m.boundaryFaces
  boundaryFaceCenters : m'.boundaryFaceCenters = m.boundaryFaceCenters
  boundaryFlags : m'.boundaryFlags = m.boundaryFlags
  edgeCount : m'.edgeCount = m.edgeCount
  lt : ∀ e < m.edgeCount, σ e < m.edgeCount
  injective : ∀ i < m.edgeCount, ∀ j < m.edgeCount, σ i = σ j → i = j
  edges : ∀ e < m.edgeCount, m'.edges[σ e]? = m.edges[e]?
  faceEdges : ∀ f, (m'.faceEdges.getD f []).Perm ((m.faceEdges.getD f []).map σ)
  dualRow : ∀ c, (m'.dualRow c).Perm ((m.dualRow c).map (Prod.map σ id))
  length_faces : m'.faceNormals.length = m.faceNormals.length ∧
    m'.faceEdges.length = m.faceEdges.length ∧ m'.faceEdgeSigns.length = m.faceEdgeSigns.length
  length_cells : m'.cellEdges.length = m.cellEdges.length ∧
    m'.cellDualFaces.length = m.cellDualFaces.length ∧
    m'.cellFaceSigns.length = m.cellFaceSigns.length

/-- A dual part with another number for its edge. -/
def DualPart.renumber (σ : Nat → Nat) (p : DualPart R) : DualPart R := { p with edge := σ p.edge }

variable [Scalar R]

/-- A face keeps its normal and its directions and orientations. -/
structure RotatedFace (σ : Nat → Nat) (m m' : PolyhedralMesh R) (f : Nat) : Prop where
  normal : (m'.face f).unit = (m.face f).unit
  directions : (m'.directedEdges f).Perm ((m.directedEdges f).map (Prod.map σ id))
  orientation : ∀ c, m'.faceSign c f = m.faceSign c f

/-- The height of the mean of the face centers of a cell below the plane of a face. -/
def heightIn (m : PolyhedralMesh R) (cells : List (List Loop)) (c f : Nat) : R :=
  Cone.height (Cone.apex (((Numbering.ofCells cells).facesOfCell c).map m.face)) (m.face f)

end Definitions

/-- A face is seen from its other side: its normal and its directions are negated, and so is its
orientation in each cell whose mean of the face centers does not lie in its plane. -/
structure ReversedFace (cells : List (List Loop)) (σ : Nat → Nat) (m m' : PolyhedralMesh ℝ)
    (f : Nat) : Prop where
  normal : (m'.face f).unit = -(m.face f).unit
  directions : (m'.directedEdges f).Perm ((m.directedEdges f).map (Prod.map σ Neg.neg))
  orientation : ∀ c, m.heightIn cells c f ≠ 0 → m'.faceSign c f = -m.faceSign c f
  outward : ∀ c, m.heightIn cells c f ≠ 0 →
    m'.faceSign c f • (m'.face f).unit = m.faceSign c f • (m.face f).unit

variable {vertices : List (Vec3 ℝ)} {cells cells' : List (List Loop)}

/-! ## Faces -/

theorem geometry_of_reversed (vertices : List (Vec3 ℝ)) {l l' : Loop}
    (h : l.reverse.IsRotated l') :
    Polygon.geometry (corners vertices l') = (Polygon.geometry (corners vertices l)).flip := by
  refine Polygon.geometry_of_isRotated_reverse ?_
  rw [corners, ← List.map_reverse]
  exact h.map _

theorem geometry_of_turned (vertices : List (Vec3 ℝ)) {l l' : Loop} (h : l.Turned l') :
    Polygon.geometry (corners vertices l') = Polygon.geometry (corners vertices l) ∨
      Polygon.geometry (corners vertices l') = (Polygon.geometry (corners vertices l)).flip := by
  rcases h with h | h
  · exact .inl (Polygon.geometry_of_isRotated (h.map _))
  · exact .inr (geometry_of_reversed vertices h)

section Tables

variable {R : Type} [Scalar R] (vertices : List (Vec3 R)) (n : Numbering)

/-- The dual parts of a cell with some faces. -/
def partsOfFaces (ids : List Nat) : List (DualPart R) :=
  dualParts vertices n (faceGeometries vertices n) (assemble vertices n).faceEdges ids

theorem cellVertices_assemble : (assemble vertices n).cellVertices = n.cellFaces.map fun ids =>
    SparseRow.columns (vertexRow (partsOfFaces vertices n ids)) := by
  simp only [assemble, partsOfFaces, List.map_map]
  rfl

theorem cellDualVolumes_assemble : (assemble vertices n).cellDualVolumes =
    n.cellFaces.map fun ids => SparseRow.values (vertexRow (partsOfFaces vertices n ids)) := by
  simp only [assemble, partsOfFaces, List.map_map]
  rfl

theorem cellFaces_assemble :
    (assemble vertices n).cellFaces = n.cellFaces.map fun ids => (firstSeen id ids).mergeSort := by
  simp only [assemble, List.map_map]
  refine List.map_congr_left fun ids _ => ?_
  simp [cellRow, SparseRow.sortedColumns, Function.comp_def]

end Tables

/-- The dual parts of a cell lie at edges of the mesh. -/
theorem lt_of_mem_dualEntries {ids : List Nat} {e : Nat}
    (he : e ∈ ((partsOfFaces vertices (.ofCells cells) ids).map fun p =>
      (p.edge, p.facePart)).map Prod.fst) : e < (Numbering.ofCells cells).edges.length := by
  rw [List.map_map] at he
  obtain ⟨p, hp, rfl⟩ := List.mem_map.1 he
  obtain ⟨f, -, hp⟩ := List.mem_flatMap.1 hp
  obtain ⟨i, hi, rfl⟩ := List.mem_map.1 hp
  obtain ⟨s, hs, rfl⟩ := mem_faceEdges.1 hi
  exact Numbering.edgeId_lt (Numbering.ofSide_mem_edges_of_loop hs)

section Turned

variable (h : Regiven Loop.Turned cells cells')
include h

theorem faceGeometries_map {α : Type} {p : EntityGeometry ℝ → α}
    (hp : ∀ face, p face.flip = p face) :
    (faceGeometries vertices (.ofCells cells')).map p =
      (faceGeometries vertices (.ofCells cells)).map p := by
  rw [faceGeometries, faceGeometries, List.map_map, List.map_map]
  refine (map_eq_map_of_forall₂ (h.loops.imp fun l l' hl => ?_)).symm
  rcases geometry_of_turned vertices hl.2 with hl | hl <;>
    simp only [Function.comp_apply, hl, hp]

theorem length_faceGeometries : (faceGeometries vertices (.ofCells cells')).length =
    (faceGeometries vertices (.ofCells cells)).length := by
  rw [faceGeometries, faceGeometries, List.length_map, List.length_map, h.length_loops]

theorem faceGeometry_of_ge {f : Nat} (hf : (Numbering.ofCells cells).loops.length ≤ f) :
    (faceGeometries vertices (.ofCells cells')).getD f default =
      (faceGeometries vertices (.ofCells cells)).getD f default := by
  have hlen : (faceGeometries vertices (.ofCells cells)).length ≤ f := by
    rwa [faceGeometries, List.length_map]
  rw [List.getD_eq_default _ _ hlen,
    List.getD_eq_default _ _ ((length_faceGeometries h).le.trans hlen)]

theorem faceGeometry_of_isRotated {f : Nat}
    (hf : ((Numbering.ofCells cells).loop f).IsRotated ((Numbering.ofCells cells').loop f)) :
    (faceGeometries vertices (.ofCells cells')).getD f default =
      (faceGeometries vertices (.ofCells cells)).getD f default := by
  by_cases hlt : f < (Numbering.ofCells cells).loops.length
  · rw [faceGeometries_getD hlt, faceGeometries_getD (h.length_loops ▸ hlt)]
    exact Polygon.geometry_of_isRotated (hf.map _)
  · exact faceGeometry_of_ge h (Nat.le_of_not_lt hlt)

theorem faceGeometry_of_reverse {f : Nat} (hlt : f < (Numbering.ofCells cells).loops.length)
    (hf : ((Numbering.ofCells cells).loop f).reverse.IsRotated
      ((Numbering.ofCells cells').loop f)) :
    (faceGeometries vertices (.ofCells cells')).getD f default =
      ((faceGeometries vertices (.ofCells cells)).getD f default).flip := by
  rw [faceGeometries_getD hlt, faceGeometries_getD (h.length_loops ▸ hlt)]
  exact geometry_of_reversed vertices hf

theorem faceGeometry_turned (f : Nat) :
    (faceGeometries vertices (.ofCells cells')).getD f default =
        (faceGeometries vertices (.ofCells cells)).getD f default ∨
      (faceGeometries vertices (.ofCells cells')).getD f default =
        ((faceGeometries vertices (.ofCells cells)).getD f default).flip := by
  by_cases hlt : f < (Numbering.ofCells cells).loops.length
  · rcases (h.loop_related hlt).2 with hf | hf
    · exact .inl (faceGeometry_of_isRotated h hf)
    · exact .inr (faceGeometry_of_reverse h hlt hf)
  · exact .inl (faceGeometry_of_ge h (Nat.le_of_not_lt hlt))

theorem faceCenter_turned (f : Nat) :
    ((faceGeometries vertices (.ofCells cells')).getD f default).center =
      ((faceGeometries vertices (.ofCells cells)).getD f default).center := by
  rcases @faceGeometry_turned vertices _ _ h f with hf | hf <;> rw [hf]
  rfl

/-! ## Edges of faces -/

theorem faceEdges_renumbered (f : Nat) :
    ((assemble vertices (.ofCells cells')).faceEdges.getD f []).Perm
      (((assemble vertices (.ofCells cells)).faceEdges.getD f []).map
        ((Numbering.ofCells cells).renumber (.ofCells cells'))) := by
  rw [faceEdges_getD, faceEdges_getD, faceRow, faceRow, SparseRow.columns_gather,
    SparseRow.columns_gather]
  exact SparseRow.sortedColumns_renumbered (h.renumber_injOn_walk f)
    fun j => (h.walk_columns_perm f).mem_iff

/-- The directions of the edges of a face, from those of the sides of its loop. -/
theorem directedEdges_renumbered {f : Nat} {u : Int → Int}
    (hu : ∀ vs ws : List Int, ws.Perm (vs.map u) → signTotal ws = u (signTotal vs))
    (hwalk : ((Numbering.ofCells cells').walk ((Numbering.ofCells cells').loop f)).Perm
      (((Numbering.ofCells cells).walk ((Numbering.ofCells cells).loop f)).map
        (Prod.map ((Numbering.ofCells cells).renumber (.ofCells cells')) u))) :
    ((assemble vertices (.ofCells cells')).directedEdges f).Perm
      (((assemble vertices (.ofCells cells)).directedEdges f).map
        (Prod.map ((Numbering.ofCells cells).renumber (.ofCells cells')) u)) := by
  rw [directedEdges_assemble, directedEdges_assemble]
  exact SparseRow.gather_renumbered (h.renumber_injOn_walk f) hwalk hu

/-! ## Cells -/

theorem apex_turned (ids : List Nat) :
    Cone.apex (facesOf (faceGeometries vertices (.ofCells cells')) ids) =
      Cone.apex (facesOf (faceGeometries vertices (.ofCells cells)) ids) :=
  Cone.apex_congr fun f _ => faceGeometry_turned h f

theorem cellCenter_turned (ids : List Nat) :
    Cone.cellCenter (facesOf (faceGeometries vertices (.ofCells cells')) ids) =
      Cone.cellCenter (facesOf (faceGeometries vertices (.ofCells cells)) ids) :=
  Cone.cellCenter_congr fun f _ => faceGeometry_turned h f

theorem cellVolume_turned (ids : List Nat) :
    Cone.cellVolume (facesOf (faceGeometries vertices (.ofCells cells')) ids) =
      Cone.cellVolume (facesOf (faceGeometries vertices (.ofCells cells)) ids) :=
  Cone.cellVolume_congr fun f _ => faceGeometry_turned h f

/-- The dual parts of a cell, by the new numbers of the edges. -/
theorem partsOfFaces_renumbered (ids : List Nat) :
    (partsOfFaces vertices (.ofCells cells') ids).Perm
      ((partsOfFaces vertices (.ofCells cells) ids).map
        (DualPart.renumber ((Numbering.ofCells cells).renumber (.ofCells cells')))) := by
  rw [partsOfFaces, partsOfFaces, dualParts, dualParts, List.map_flatMap]
  refine List.Perm.flatMap_left ids fun f _ => ?_
  refine ((faceEdges_renumbered h f).map _).trans (.of_eq ?_)
  rw [List.map_map, List.map_map]
  refine List.map_congr_left fun e he => ?_
  have hlt : e < (Numbering.ofCells cells).edges.length := by
    obtain ⟨s, hs, rfl⟩ := mem_faceEdges.1 he
    exact Numbering.edgeId_lt (Numbering.ofSide_mem_edges_of_loop hs)
  have hends := h.ends_renumber hlt
  rw [Numbering.ends, Numbering.ends] at hends
  simp only [Function.comp_apply, dualPart, DualPart.renumber, cellCenter_turned h ids,
    faceCenter_turned h f, hends]

theorem vertexRow_turned (ids : List Nat) :
    vertexRow (partsOfFaces vertices (.ofCells cells') ids) =
      vertexRow (partsOfFaces vertices (.ofCells cells) ids) := by
  refine SparseRow.gather_perm ?_ fun _ _ huv => total_perm huv
  refine ((partsOfFaces_renumbered h ids).flatMap_right _).trans (.of_eq ?_)
  rw [List.flatMap_map]
  rfl

theorem edgeRow_renumbered (ids : List Nat) :
    (edgeRow (partsOfFaces vertices (.ofCells cells') ids)).Perm
      ((edgeRow (partsOfFaces vertices (.ofCells cells) ids)).map
        (Prod.map ((Numbering.ofCells cells).renumber (.ofCells cells')) id)) := by
  refine SparseRow.gather_renumbered (fun i hi j hj => ?_) ?_ fun vs ws hws => ?_
  · exact h.renumber_injective (lt_of_mem_dualEntries hi) (lt_of_mem_dualEntries hj)
  · refine ((partsOfFaces_renumbered h ids).map _).trans (.of_eq ?_)
    rw [List.map_map, List.map_map]
    rfl
  · exact total_perm (by simpa using hws)

/-! ## Meshes -/

theorem sameUpToEdges_of_turned :
    SameUpToEdges ((Numbering.ofCells cells).renumber (.ofCells cells'))
      (assemble vertices (.ofCells cells)) (assemble vertices (.ofCells cells')) where
  vertexPoints := rfl
  faceCenters := faceGeometries_map h fun _ => rfl
  faceAreas := faceGeometries_map h fun _ => rfl
  cellCenters := congrArg₂ List.map (funext (cellCenter_turned h)) h.cellFaces
  cellVolumes := congrArg₂ List.map (funext (cellVolume_turned h)) h.cellFaces
  cellVertices := by
    rw [cellVertices_assemble, cellVertices_assemble, h.cellFaces]
    simp only [vertexRow_turned h]
  cellDualVolumes := by
    rw [cellDualVolumes_assemble, cellDualVolumes_assemble, h.cellFaces]
    simp only [vertexRow_turned h]
  cellFaces := by
    rw [cellFaces_assemble, cellFaces_assemble, h.cellFaces]
  boundaryFaces := by
    simp only [assemble, h.length_loops, h.isListedOnce]
  boundaryFaceCenters := by
    simp only [assemble, h.length_loops, h.isListedOnce, faceCenter_turned h]
  boundaryFlags := by
    simp only [assemble, h.length_loops, h.isListedOnce]
  edgeCount := h.edges_length
  lt _ he := h.renumber_lt he
  injective _ hi _ hj := h.renumber_injective hi hj
  edges _ he := h.getElem?_renumber he
  faceEdges := faceEdges_renumbered h
  dualRow c := by
    rw [dualRow, dualRow, cellEdges_getD, cellEdges_getD, cellDualFaces_getD, cellDualFaces_getD,
      SparseRow.zip_columns_values, SparseRow.zip_columns_values, partsOfCell, partsOfCell,
      h.facesOfCell]
    exact edgeRow_renumbered h _
  length_faces := by
    simp [assemble, h.length_loops, faceGeometries]
  length_cells := by
    simp [assemble, h.cellFaces]

theorem rotatedFace_of_isRotated {f : Nat} (hlt : f < (Numbering.ofCells cells).loops.length)
    (hf : ((Numbering.ofCells cells).loop f).IsRotated ((Numbering.ofCells cells').loop f)) :
    RotatedFace ((Numbering.ofCells cells).renumber (.ofCells cells'))
      (assemble vertices (.ofCells cells)) (assemble vertices (.ofCells cells')) f where
  normal := by
    rw [face_assemble, face_assemble, faceGeometry_of_isRotated h hf]
  directions :=
    directedEdges_renumbered h (fun vs ws hws => signTotal_perm (by simpa using hws))
      (Numbering.walk_perm_of_isRotated (Numbering.loop_mem hlt) hf)
  orientation c := by
    rw [faceSign_eq_count, faceSign_eq_count, h.facesOfCell, apex_turned h,
      faceGeometry_of_isRotated h hf]

theorem reversedFace_of_isRotated_reverse {f : Nat}
    (hlt : f < (Numbering.ofCells cells).loops.length)
    (hf : ((Numbering.ofCells cells).loop f).reverse.IsRotated
      ((Numbering.ofCells cells').loop f))
    (hne : ∀ s ∈ cyclicPairs ((Numbering.ofCells cells).loop f), s.1 ≠ s.2) :
    ReversedFace cells ((Numbering.ofCells cells).renumber (.ofCells cells'))
      (assemble vertices (.ofCells cells)) (assemble vertices (.ofCells cells')) f := by
  have hnormal : ((assemble vertices (.ofCells cells')).face f).unit =
      -((assemble vertices (.ofCells cells)).face f).unit := by
    rw [face_assemble, face_assemble, faceGeometry_of_reverse h hlt hf]
    rfl
  have hsign : ∀ c, (assemble vertices (.ofCells cells)).heightIn cells c f ≠ 0 →
      (assemble vertices (.ofCells cells')).faceSign c f =
        -(assemble vertices (.ofCells cells)).faceSign c f := by
    intro c hheight
    have hface : (assemble vertices (.ofCells cells)).face =
        fun f => (faceGeometries vertices (.ofCells cells)).getD f default :=
      funext fun f => face_assemble vertices (.ofCells cells) f
    rw [heightIn, hface] at hheight
    rw [faceSign_eq_count, faceSign_eq_count, h.facesOfCell, apex_turned h,
      faceGeometry_of_reverse h hlt hf, facesOf, Cone.sign_flip hheight, smul_neg]
  refine ⟨hnormal, ?_, hsign, fun c hheight => ?_⟩
  · refine directedEdges_renumbered h (fun vs ws hws => ?_)
      (Numbering.walk_perm_of_isRotated_reverse (Numbering.loop_mem hlt) hf hne)
    rw [signTotal_perm hws, signTotal_eq_sum, signTotal_eq_sum, List.sum_neg]
  · rw [hsign c hheight, hnormal, neg_smul, smul_neg, neg_neg]

end Turned

/-- No plane of a face of a regular cell contains the mean of the face centers. -/
theorem heightIn_ne_zero {m : PolyhedralMesh ℝ} {c f : Nat} (hm : build vertices cells = .ok m)
    (hc : RegularCell cells m c) (hf : f ∈ m.cellFaces.getD c []) : m.heightIn cells c f ≠ 0 := by
  have hproper := hc.proper hm
  have hpos := RegularCell.sign_mul_height_pos hm hc (hproper.surrounds_apex hm) hf
  rw [heightIn, ← Cone.apex_perm ((hproper.cellFaces_perm hm).map m.face)]
  intro hzero
  rw [hzero, mul_zero] at hpos
  exact lt_irrefl 0 hpos

/-! ## Construction -/

/-- The mesh of cells that pass the checks and meet no edge too often is refused only for the
directions along a loop. -/
theorem build_eq_ite {R : Type} [Scalar R] {vertices : List (Vec3 R)} {cells : List (List Loop)}
    (hcheck : checkCells vertices.length cells = .ok ())
    (hmeet : (Numbering.ofCells cells).meetingsFit = true) :
    build vertices cells = if (Numbering.ofCells cells).walksFit
      then .ok (assemble vertices (.ofCells cells)) else .error .signOverflow := by
  simp only [build, hcheck, ok_bind, Numbering.signsFit, hmeet, Bool.and_true]
  rfl

/-- **The direction and start of a loop do not matter.**  Loops that are not the first ones of
their faces can name the vertices in any order.  If the first ones are turned and walk at most 127
times along each edge, the mesh is built again: the edges get new numbers, faces with a rotated
loop stay as they are, and those with a reversed one are seen from their other side.  A mesh with
loops that walk along an edge more often is the same one or refused, for directions that no longer
fit into a byte while they are added up. -/
theorem loop_directions (cells cells' : List (List Loop)) :
    (Regiven Eq cells cells' → ∀ {R : Type} [Scalar R] (vertices : List (Vec3 R))
      (m : PolyhedralMesh R), build vertices cells = .ok m → build vertices cells' = .ok m) ∧
    (Regiven Loop.Turned cells cells' → ∀ (vertices : List (Vec3 ℝ)) (m : PolyhedralMesh ℝ),
      build vertices cells = .ok m →
      let n := Numbering.ofCells cells
      let n' := Numbering.ofCells cells'
      let m' := assemble vertices n'
      ((∀ l ∈ n.loops, ∀ e, ((cyclicPairs l).map Edge.ofSide).count e ≤ 127) →
        build vertices cells' = .ok m') ∧
      build vertices cells' = (if n'.walksFit then .ok m' else .error .signOverflow) ∧
      SameUpToEdges (n.renumber n') m m' ∧
      ∀ f < m.faceCount,
        ((n.loop f).IsRotated (n'.loop f) → RotatedFace (n.renumber n') m m' f) ∧
        ((n.loop f).reverse.IsRotated (n'.loop f) → (∀ s ∈ cyclicPairs (n.loop f), s.1 ≠ s.2) →
          ReversedFace cells (n.renumber n') m m' f)) := by
  refine ⟨fun h _ _ vertices m hm => ?_, fun h vertices m hm => ?_⟩
  · obtain ⟨hcheck, hfit, rfl⟩ := build_eq_ok.1 hm
    have hn : Numbering.ofCells cells' = Numbering.ofCells cells := h.numbering_eq
    exact build_eq_ok.2 ⟨h.checkCells hcheck, hn ▸ hfit, by rw [hn]⟩
  · intro n n' m'
    obtain ⟨hcheck, hfit, rfl⟩ := build_eq_ok.1 hm
    have hbuild : build vertices cells' = if n'.walksFit then .ok m' else .error .signOverflow :=
      build_eq_ite (h.checkCells hcheck) (h.meetingsFit.trans (Bool.and_eq_true_iff.1 hfit).2)
    have hlt : ∀ f < (assemble vertices n).faceCount, f < n.loops.length := by
      intro f hf
      simpa [MeshTables.faceCount, assemble, faceGeometries] using hf
    refine ⟨fun hcount => ?_, hbuild, sameUpToEdges_of_turned h, fun f hf => ⟨fun hrot => ?_,
      fun hrev hne => ?_⟩⟩
    · rw [hbuild, h.walksFit_of_count_le hcount]
      rfl
    · exact rotatedFace_of_isRotated h (hlt f hf) hrot
    · exact reversedFace_of_isRotated_reverse h (hlt f hf) hrev hne

/-- Two tetrahedra, the second of which names the vertices of the common face in another order; and
a tetrahedron with one loop reversed and one rotated. -/
theorem loop_directions_tetrahedra :
    let points : List (Vec3 ℝ) := [0, ⟨1, 0, 0⟩, ⟨0, 1, 0⟩, ⟨0, 0, 1⟩]
    let cells := [[[0, 2, 1], [0, 1, 3], [0, 3, 2], [1, 2, 3]],
      [[3, 2, 1], [1, 2, 4], [2, 3, 4], [3, 1, 4]]]
    let reordered := [[[0, 2, 1], [0, 1, 3], [0, 3, 2], [1, 2, 3]],
      [[2, 1, 3], [1, 2, 4], [2, 3, 4], [3, 1, 4]]]
    let turned := [[[1, 2, 0], [1, 3, 0], [0, 3, 2], [1, 2, 3]]]
    let σ := (Numbering.ofCells tetrahedronCells).renumber (.ofCells turned)
    let m' := assemble points (.ofCells turned)
    build (points ++ [⟨1, 1, 1⟩]) reordered =
        .ok (assemble (points ++ [⟨1, 1, 1⟩]) (.ofCells cells)) ∧
      build points turned = .ok m' ∧ SameUpToEdges σ Tetrahedron.unitMesh m' ∧
      ReversedFace tetrahedronCells σ Tetrahedron.unitMesh m' 0 ∧
      Tetrahedron.unitMesh.heightIn tetrahedronCells 0 0 ≠ 0 ∧
      RotatedFace σ Tetrahedron.unitMesh m' 1 := by
  intro points cells reordered turned σ m'
  have hnumbering : Numbering.ofCells cells =
      { loops := [[0, 2, 1], [0, 1, 3], [0, 3, 2], [1, 2, 3], [1, 2, 4], [2, 3, 4], [3, 1, 4]]
        edges := [(0, 2), (1, 2), (0, 1), (1, 3), (0, 3), (2, 3), (2, 4), (1, 4), (3, 4)]
        cellFaces := [[0, 1, 2, 3], [3, 4, 5, 6]] } := by
    cbv
  have hcells : build (points ++ [⟨1, 1, 1⟩]) cells =
      .ok (assemble (points ++ [⟨1, 1, 1⟩]) (.ofCells cells)) := by
    refine build_eq_ok.2 ⟨checkCells_eq_ok.2 (by decide), ?_, rfl⟩
    rw [hnumbering]
    decide +kernel
  have hreordered : Regiven Eq cells reordered := by
    refine ⟨by simp [cells, reordered]; decide, ?_⟩
    -- only the fifth loop differs, and its face was listed before
    have hset : reordered.flatten = cells.flatten.set 4 [2, 1, 3] := rfl
    intro i l l' hl hl' hbefore
    by_cases hi : i = 4
    · subst hi
      obtain rfl : [3, 2, 1] = l := Option.some.inj hl
      exact absurd (by decide) (hbefore [1, 2, 3] (by decide))
    · rw [hset, List.getElem?_set_ne (Ne.symm hi), hl] at hl'
      exact Option.some.inj hl'
  have hturned : Regiven Loop.Turned tetrahedronCells turned :=
    regiven_of_turned (by simp only [tetrahedronCells, turned, List.forall₂_cons,
      List.forall₂_nil_right_iff]; decide)
  have hloops : (Numbering.ofCells turned).loops =
      [[1, 2, 0], [1, 3, 0], [0, 3, 2], [1, 2, 3]] := by
    cbv
  have hshort : ∀ l ∈ (Numbering.ofCells tetrahedronCells).loops, l.length ≤ 127 := by
    rw [Tetrahedron.numbering]
    decide
  have hcount : ∀ f < 4, f < Tetrahedron.unitMesh.faceCount := by
    intro f hf
    simpa [Tetrahedron.unitMesh, Tetrahedron.mesh, MeshTables.faceCount, assemble, faceGeometries,
      Tetrahedron.numbering] using hf
  obtain ⟨hbuild, -, hsame, hfaces⟩ :=
    (loop_directions tetrahedronCells turned).2 hturned points _ Tetrahedron.build_unitMesh
  refine ⟨(loop_directions cells reordered).1 hreordered _ _ hcells, hbuild fun l hl e => ?_,
    hsame, ?_, ?_, ?_⟩
  · exact List.count_le_length.trans (by simpa using hshort l hl)
  · refine (hfaces 0 (hcount 0 (by decide))).2 ?_ ?_
    · rw [Numbering.loop, Numbering.loop, hloops, Tetrahedron.numbering]
      decide
    · rw [Numbering.loop, Tetrahedron.numbering]
      decide
  · exact heightIn_ne_zero Tetrahedron.build_unitMesh Tetrahedron.regularCell_unitMesh
      (by rw [Tetrahedron.cellFaces_unitMesh]; decide)
  · refine (hfaces 1 (hcount 1 (by decide))).1 ?_
    rw [Numbering.loop, Numbering.loop, hloops, Tetrahedron.numbering]
    decide

/-! ### A loop that walks along an edge 128 times -/

/-- A loop that winds 64 times around each of two triangles with a common side. -/
def windingLoop : Loop :=
  (List.replicate 64 [1, 0, 2]).flatten ++ (List.replicate 64 [1, 0, 3]).flatten

/-- The tetrahedron, with some loop for its first face. -/
def windingCells (l : Loop) : List (List Loop) := [[l, [0, 1, 3], [0, 3, 2], [1, 2, 3]]]

/-- The sides of the loop, each as often as the loop walks along it. -/
def windingSides : List (Nat × Nat) :=
  List.replicate 128 (1, 0) ++ (List.replicate 64 (0, 2) ++ (List.replicate 64 (2, 1) ++
    (List.replicate 64 (0, 3) ++ List.replicate 64 (3, 1))))

theorem cyclicPairs_windingLoop_perm : (cyclicPairs windingLoop).Perm windingSides := by
  have hsides : cyclicPairs windingLoop =
      (List.replicate 64 [(1, 0), (0, 2), (2, 1)]).flatten ++
        (List.replicate 64 [(1, 0), (0, 3), (3, 1)]).flatten := by
    have hjoin := cyclicPairs_append 1 ([0, 2] ++ (List.replicate 63 [1, 0, 2]).flatten)
      ([0, 3] ++ (List.replicate 63 [1, 0, 3]).flatten)
    exact hjoin.trans (congrArg₂ (· ++ ·) (cyclicPairs_flatten_replicate 1 [0, 2] 64)
      (cyclicPairs_flatten_replicate 1 [0, 3] 64))
  refine List.perm_iff_count.2 fun s => ?_
  simp only [hsides, windingSides, List.count_append, List.count_flatten, List.map_replicate,
    List.sum_replicate, List.count_replicate, List.count_cons, List.count_nil, smul_eq_mul]
  split_ifs <;> omega

theorem numbering_windingCells {l : Loop} (h : l.length ≠ 3) :
    (Numbering.ofCells (windingCells l)).loops = [l, [0, 1, 3], [0, 3, 2], [1, 2, 3]] ∧
      (Numbering.ofCells (windingCells l)).cellFaces = [[0, 1, 2, 3]] := by
  refine Numbering.ofCells_single (List.pairwise_cons.2 ⟨fun l' hl' hperm => h ?_, by decide⟩)
  have hlen : ∀ l' ∈ [[0, 1, 3], [0, 3, 2], [1, 2, 3]], l'.length = 3 := by decide
  rw [hperm.length_eq, hlen l' hl']

theorem signs_windingLoop : ∀ s ∈ windingSides,
    ∃ k x, ((windingSides.filter fun t => Edge.ofSide t == Edge.ofSide s).map Edge.walkSign) =
      List.replicate k x ∧ (signTotal? (List.replicate k x)).isSome = true := by
  have hsides : ∀ s ∈ windingSides, s ∈ [(1, 0), (0, 2), (2, 1), (0, 3), (3, 1)] := by
    decide +kernel
  have hsigns : ∀ s ∈ [(1, 0), (0, 2), (2, 1), (0, 3), (3, 1)],
      ((windingSides.filter fun t => Edge.ofSide t == Edge.ofSide s).map Edge.walkSign) =
        List.replicate (windingSides.count s) (Edge.walkSign s) ∧
      (signTotal? (List.replicate (windingSides.count s) (Edge.walkSign s))).isSome = true := by
    decide +kernel
  exact fun s hs => ⟨_, _, hsigns s (hsides s hs)⟩

theorem length_windingLoop : windingLoop.length = 384 := by decide +kernel

/-- Bytes can hold the directions as the loop is given: along one edge they add up to -128. -/
theorem walksFit_windingLoop :
    (Numbering.ofCells (windingCells windingLoop)).walksFit = true := by
  have hloops := (numbering_windingCells (l := windingLoop) (by simp [length_windingLoop])).1
  refine List.all_eq_true.2 fun l hl => ?_
  have hcases := hl
  rw [hloops, List.mem_cons] at hcases
  rcases hcases with rfl | hshort
  · refine Numbering.signsFit_walk hl fun s hs signs hsigns => ?_
    have hperm := hsigns.trans ((cyclicPairs_windingLoop_perm.filter _).map _)
    obtain ⟨k, x, hconst, hfit⟩ := signs_windingLoop s (cyclicPairs_windingLoop_perm.mem_iff.1 hs)
    rw [hconst, List.perm_replicate] at hperm
    rwa [hperm]
  · have hlen : ∀ l ∈ [[0, 1, 3], [0, 3, 2], [1, 2, 3]], l.length ≤ 127 := by decide
    simp [SparseRow.signsFit, Numbering.walk, hlen l hshort]

/-- They cannot hold them for the reversed loop, where they add up to 128. -/
theorem walksFit_reverse_windingLoop :
    (Numbering.ofCells (windingCells windingLoop.reverse)).walksFit = false := by
  rw [Bool.eq_false_iff]
  intro hfit
  have hloops :=
    (numbering_windingCells (l := windingLoop.reverse) (by simp [length_windingLoop])).1
  have hl : windingLoop.reverse ∈ (Numbering.ofCells (windingCells windingLoop.reverse)).loops := by
    rw [hloops]
    exact List.mem_cons_self
  have hsides : (cyclicPairs windingLoop.reverse).Perm (windingSides.map Prod.swap) :=
    (cyclicPairs_perm_of_isRotated_reverse (.refl _)).trans (cyclicPairs_windingLoop_perm.map _)
  have hs : ((0, 1) : Nat × Nat) ∈ cyclicPairs windingLoop.reverse :=
    hsides.mem_iff.2 (by decide +kernel)
  have hsigns : (SparseRow.valuesAt
      ((Numbering.ofCells (windingCells windingLoop.reverse)).edgeId (Edge.ofSide (0, 1)))
      ((Numbering.ofCells (windingCells windingLoop.reverse)).walk windingLoop.reverse)).Perm
        (List.replicate 128 1) := by
    rw [Numbering.valuesAt_walk hl (Numbering.ofSide_mem_edges hl hs)]
    refine ((hsides.filter _).map _).trans (.of_eq ?_)
    decide +kernel
  have hbyte := SparseRow.fitsByte_of_signsFit (fun _ he => Numbering.walk_sign he)
    (List.all_eq_true.1 hfit _ hl)
    (List.mem_map_of_mem (List.mem_map_of_mem (SparseRow.mem_sortedColumns.2
      (Numbering.mem_walk_columns.2 ⟨(0, 1), hs, rfl⟩))))
  rw [signTotal_perm hsigns] at hbyte
  exact absurd hbyte (by decide +kernel)

/-- The origin and the three unit points. -/
noncomputable def unitCorners : List (Vec3 ℝ) := [0, ⟨1, 0, 0⟩, ⟨0, 1, 0⟩, ⟨0, 0, 1⟩]

theorem dot_vectorArea_windingLoop :
    (⟨0, 0, 1⟩ : Vec3 ℝ).dot (Polygon.vectorArea (corners unitCorners windingLoop)) = -32 := by
  rw [Polygon.vectorArea_eq_sum_cross, corners, cyclicPairs_map, List.map_map, Vec3.dot_sum,
    (cyclicPairs_windingLoop_perm.map _).sum_eq]
  simp only [windingSides, List.map_append, List.map_replicate, List.sum_append, List.sum_replicate]
  norm_num [unitCorners, Vec3.dot, Vec3.cross]

theorem measure_pos_windingCells : ∀ l ∈ [windingLoop, [0, 1, 3], [0, 3, 2], [1, 2, 3]],
    0 < (Polygon.geometry (corners unitCorners l)).measure := by
  have hne : ∀ l ∈ [windingLoop, [0, 1, 3], [0, 3, 2], [1, 2, 3]],
      Polygon.vectorArea (corners unitCorners l) ≠ 0 := by
    simp only [List.forall_mem_cons, List.not_mem_nil, false_implies, implies_true, and_true]
    refine ⟨fun h => ?_, ?_, ?_, ?_⟩
    · have hdot := dot_vectorArea_windingLoop
      rw [h, Vec3.dot_zero] at hdot
      norm_num at hdot
    all_goals
      simp [corners, unitCorners, Polygon.vectorArea_triangle, triangleVector_eq, Vec3.cross,
        Vec3.ext_iff]
  intro l hl
  exact lt_of_le_of_ne (Vec3.norm_nonneg _) fun h => hne l hl (Vec3.norm_eq_zero.1 h.symm)

/-- The centers of the faces do not lie in the plane of the face at the first axis. -/
theorem cellVolume_pos_windingCells : 0 < Cone.cellVolume
    ([windingLoop, [0, 1, 3], [0, 3, 2], [1, 2, 3]].map fun l =>
      Polygon.geometry (corners unitCorners l)) := by
  set loops : List Loop := [windingLoop, [0, 1, 3], [0, 3, 2], [1, 2, 3]] with hloops
  set faces := loops.map fun l => Polygon.geometry (corners unitCorners l) with hfaces
  set g : Vec3 ℝ := ⟨1, 0, 0⟩ with hg
  have hcorner : ∀ l : Loop, ∀ p ∈ corners unitCorners l, 0 ≤ g.dot p := by
    intro l p hp
    obtain ⟨v, -, rfl⟩ := List.mem_map.1 hp
    match v with
    | 0 | 1 | 2 | 3 => simp [hg, unitCorners, Vec3.dot]
    | v + 4 => simp [hg, unitCorners, Vec3.dot]
  have hcenter : ∀ l ∈ loops, 0 ≤ g.dot (Polygon.geometry (corners unitCorners l)).center :=
    fun l hl => (Polygon.surrounds_barycenter (Polygon.fanArea_pos
      (measure_pos_windingCells l hl))).inHull g 0 (hcorner l)
  have htriangle : ∀ i j k : Nat, [i, j, k] ∈ loops →
      (Polygon.geometry (corners unitCorners [i, j, k])).center = (1 / 3 : ℝ) •
        (unitCorners.getD i 0 + unitCorners.getD j 0 + unitCorners.getD k 0) := by
    intro i j k hl
    refine ConvexFace.center_triangle (convexFace_triangle fun h => ?_)
    have hpos := measure_pos_windingCells _ hl
    rw [Polygon.geometry_measure, corners, List.map_cons, List.map_cons, List.map_cons,
      List.map_nil, Polygon.vectorArea_triangle, h, Vec3.norm_zero] at hpos
    exact lt_irrefl 0 hpos
  have hapex : 0 < g.dot (Cone.apex faces) := by
    rw [Cone.apex_eq_weightedMean]
    refine lt_dot_weightedMean (fun _ _ => zero_le_one) (sum_ones_pos (by simp [hfaces, hloops]))
      (fun face hface => ?_) ?_
    · obtain ⟨l, hl, rfl⟩ := List.mem_map.1 hface
      exact hcenter l hl
    · refine ⟨_, List.mem_map_of_mem (show [0, 1, 3] ∈ loops by simp [hloops]), zero_lt_one, ?_⟩
      rw [htriangle 0 1 3 (by simp [hloops])]
      simp [hg, unitCorners, Vec3.dot]
  have hmem : [0, 3, 2] ∈ loops := by simp [hloops]
  refine Cone.cellVolume_pos (List.mem_map_of_mem hmem) (fun face hface => ?_) ?_
  · obtain ⟨l, hl, rfl⟩ := List.mem_map.1 hface
    exact measure_pos_windingCells l hl
  · have harea : Polygon.vectorArea (corners unitCorners [0, 3, 2]) = (-1 / 2 : ℝ) • g := by
      ext <;> norm_num [corners, unitCorners, Polygon.vectorArea_triangle, triangleVector_eq,
        Vec3.cross, hg]
    have hplane : g.dot (Polygon.geometry (corners unitCorners [0, 3, 2])).center = 0 := by
      rw [htriangle 0 3 2 hmem]
      simp [hg, unitCorners, Vec3.dot]
    have hnorm : (Polygon.vectorArea (corners unitCorners [0, 3, 2])).norm ≠ 0 :=
      (measure_pos_windingCells _ hmem).ne'
    rw [Cone.height, Polygon.geometry_unit, Vec3.dot_comm, Vec3.dot_div]
    refine div_ne_zero ?_ hnorm
    rw [harea, Vec3.dot_smul, Vec3.dot_comm, Vec3.dot_sub, hplane]
    exact mul_ne_zero (by norm_num) (by linarith)

/-- **A turned loop may be refused.**  The faces have areas, the cell has a volume and no side is a
single point, but the reversed loop walks 128 times upwards along an edge. -/
theorem build_windingLoop :
    ∃ m, build unitCorners (windingCells windingLoop) = .ok m ∧ (∀ a ∈ m.faceAreas, a ≠ 0) ∧
      (∀ v ∈ m.cellVolumes, v ≠ 0) ∧
      (∀ l ∈ (windingCells windingLoop).flatten, ∀ s ∈ cyclicPairs l, s.1 ≠ s.2) ∧
      Regiven Loop.Turned (windingCells windingLoop) (windingCells windingLoop.reverse) ∧
      build unitCorners (windingCells windingLoop.reverse) = .error .signOverflow := by
  obtain ⟨hloops, hcellFaces⟩ :=
    numbering_windingCells (l := windingLoop) (by simp [length_windingLoop])
  have hturned : Regiven Loop.Turned (windingCells windingLoop)
      (windingCells windingLoop.reverse) := by
    have hrefl : ∀ l : Loop, l.Turned l := fun l => .inl (.refl l)
    have hreverse : windingLoop.Turned windingLoop.reverse := .inr (.refl _)
    exact regiven_of_turned (by simp [windingCells, hrefl, hreverse])
  have hcheck : checkCells unitCorners.length (windingCells windingLoop) = .ok () := by
    have hlen : unitCorners.length = 4 := rfl
    rw [hlen, checkCells_eq_ok]
    decide +kernel
  have hmeet : (Numbering.ofCells (windingCells windingLoop)).meetingsFit = true := by
    rw [Numbering.meetingsFit, hloops, hcellFaces]
    decide +kernel
  have hbuild := build_eq_ite hcheck hmeet
  rw [if_pos walksFit_windingLoop] at hbuild
  refine ⟨_, hbuild, fun a ha => ?_, fun v hv => ?_, ?_, hturned, ?_⟩
  · rw [assemble, faceGeometries, hloops] at ha
    simp only [List.map_map] at ha
    obtain ⟨l, hl, rfl⟩ := List.mem_map.1 ha
    exact (measure_pos_windingCells l hl).ne'
  · have hfaces : facesOf (faceGeometries unitCorners (.ofCells (windingCells windingLoop)))
        [0, 1, 2, 3] = [windingLoop, [0, 1, 3], [0, 3, 2], [1, 2, 3]].map fun l =>
          Polygon.geometry (corners unitCorners l) := by
      rw [faceGeometries, hloops]
      rfl
    rw [assemble, hcellFaces] at hv
    simp only [List.map_cons, List.map_nil, List.mem_singleton, hfaces] at hv
    rw [hv]
    exact cellVolume_pos_windingCells.ne'
  · decide +kernel
  · rw [build_eq_ite (hturned.checkCells hcheck) (hturned.meetingsFit.trans hmeet),
      walksFit_reverse_windingLoop]
    rfl

end PolyhedralMesh

end Polyfield
