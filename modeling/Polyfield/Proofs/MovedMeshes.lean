import Polyfield.Proofs.BuiltCache
import Polyfield.Proofs.MeshConstruction
import Polyfield.Proofs.MovedGeometry
import Polyfield.Proofs.TetrahedronCell

/-!
# Moved meshes

All that a mesh stores is made of differences of points and of means.  If its vertices are moved,
its points move with them, and its measures are stretched by powers of the factor; which entities
there are, how they are connected, directed and oriented, and which way faces and edges point
stays.  The same holds for the cache of a cell.

* `MeshTables.move`, `PolyhedralMesh.move`, `CellCache.move` : what changes, and how;
* `PolyhedralMesh.assemble_move` : the mesh with moved vertices;
* `CellCache.ofTables_move` : the cache of a cell of moved tables;
* `PolyhedralMesh.build_move` : both, for every mesh that can be built.
-/

namespace Polyfield

/-! ## What changes -/

/-- Tables after a move. -/
noncomputable def MeshTables.move (μ : Move) (m : MeshTables ℝ) : MeshTables ℝ :=
  { m with
    vertexPoints := m.vertexPoints.map μ.apply
    cellCenters := m.cellCenters.map μ.apply
    boundaryFaceCenters := m.boundaryFaceCenters.map μ.apply
    cellVolumes := m.cellVolumes.map (μ.factor ^ 3 * ·)
    faceCenters := m.faceCenters.map μ.apply
    faceAreas := m.faceAreas.map (μ.factor ^ 2 * ·)
    cellDualVolumes := m.cellDualVolumes.map (·.map (μ.factor ^ 3 * ·))
    cellDualFaces := m.cellDualFaces.map (·.map (μ.factor ^ 2 • ·)) }

/-- A mesh after a move. -/
noncomputable def PolyhedralMesh.move (μ : Move) (m : PolyhedralMesh ℝ) : PolyhedralMesh ℝ :=
  { m with toMeshTables := m.toMeshTables.move μ }

/-- The cache of a cell after a move. -/
noncomputable def CellCache.move (μ : Move) (cm : CellCache ℝ) : CellCache ℝ :=
  { cm with
    center := μ.apply cm.center
    volume := μ.factor ^ 3 * cm.volume
    vertexPoints := cm.vertexPoints.map μ.apply
    edges := cm.edges.map (.move μ 1)
    faces := cm.faces.map (.move μ 2)
    faceHeights := cm.faceHeights.map (μ.factor * ·)
    triangleAreas := cm.triangleAreas.map (μ.factor ^ 2 * ·) }

/-- A list whose entries are mapped, from the list of the entries. -/
theorem map_eq_map_map {α β γ : Type} {f : α → β} {g : α → γ} {u : β → γ} {xs : List α}
    (h : ∀ x ∈ xs, g x = u (f x)) : xs.map g = (xs.map f).map u := by
  rw [List.map_map]
  exact List.map_congr_left h

/-! ## Rows -/

namespace SparseRow

variable {V W : Type} {u : V → W}

/-- The row of some entries with mapped values. -/
theorem gather_map {sum : List V → V} {sum' : List W → W}
    (h : ∀ vs, sum' (vs.map u) = u (sum vs)) (es : List (Nat × V)) :
    gather sum' (es.map (Prod.map id u)) = (gather sum es).map (Prod.map id u) := by
  have hcolumns : sortedColumns (es.map (Prod.map id u)) = sortedColumns es :=
    sortedColumns_congr (by simp)
  have hvalues : ∀ j, valuesAt j (es.map (Prod.map id u)) = (valuesAt j es).map u := by
    intro j
    simp only [valuesAt, List.filter_map, List.map_map]
    rfl
  rw [gather, gather, hcolumns, List.map_map]
  refine List.map_congr_left fun j _ => ?_
  rw [hvalues, h]
  rfl

theorem columns_map (row : SparseRow V) : columns (row.map (Prod.map id u)) = columns row := by
  simp [columns]

theorem values_map (row : SparseRow V) :
    values (row.map (Prod.map id u)) = (values row).map u := by
  simp [values]

end SparseRow

theorem total_map_mul (s : ℝ) (xs : List ℝ) : total (xs.map (s * ·)) = s * total xs := by
  rw [total_eq_sum, total_eq_sum, List.sum_map_mul_left, List.map_id']

theorem total_map_smul (s : ℝ) (vs : List (Vec3 ℝ)) : total (vs.map (s • ·)) = s • total vs := by
  rw [total_eq_sum, total_eq_sum, List.smul_sum]

/-! ## Faces and cells -/

namespace PolyhedralMesh

variable (μ : Move) {vertices : List (Vec3 ℝ)} {n : Numbering}

theorem corners_move {l : Loop} (hl : ∀ v ∈ l, v < vertices.length) :
    corners (vertices.map μ.apply) l = (corners vertices l).map μ.apply := by
  rw [corners, corners, List.map_map]
  exact List.map_congr_left fun v hv => getD_map_of_lt μ.apply (hl v hv) 0 0

theorem faceGeometries_move (hv : n.VerticesBelow vertices.length)
    (hloops : ∀ l ∈ n.loops, Polygon.fanArea (corners vertices l) ≠ 0) :
    faceGeometries (vertices.map μ.apply) n =
      (faceGeometries vertices n).map (.move μ 2) := by
  rw [faceGeometries, faceGeometries, List.map_map]
  refine List.map_congr_left fun l hl => ?_
  rw [corners_move μ (hv l hl), Polygon.geometry_move μ (hloops l hl)]
  rfl

section Faces

variable {faces : List (EntityGeometry ℝ)} {ids : List Nat}
  (hids : ∀ f ∈ ids, f < faces.length)
include hids

theorem facesOf_move :
    facesOf (faces.map (.move μ 2)) ids = (facesOf faces ids).map (.move μ 2) := by
  rw [facesOf, facesOf, List.map_map]
  exact List.map_congr_left fun f hf => getD_map_of_lt _ (hids f hf) default default

omit hids in
/-- A cell with a volume has faces. -/
theorem facesOf_ne_nil (hvolume : Cone.cellVolume (facesOf faces ids) ≠ 0) :
    facesOf faces ids ≠ [] := by
  intro hnil
  rw [hnil] at hvolume
  exact hvolume rfl

theorem cellVolume_facesOf_move (hvolume : Cone.cellVolume (facesOf faces ids) ≠ 0) :
    Cone.cellVolume (facesOf (faces.map (.move μ 2)) ids) =
      μ.factor ^ 3 * Cone.cellVolume (facesOf faces ids) := by
  rw [facesOf_move μ hids, Cone.cellVolume_move μ (facesOf_ne_nil hvolume)]

theorem cellCenter_facesOf_move (hvolume : Cone.cellVolume (facesOf faces ids) ≠ 0) :
    Cone.cellCenter (facesOf (faces.map (.move μ 2)) ids) =
      μ.apply (Cone.cellCenter (facesOf faces ids)) := by
  rw [facesOf_move μ hids, Cone.cellCenter_move μ (facesOf_ne_nil hvolume) hvolume]

/-- The faces of a cell keep their orientations. -/
theorem cellRow_move : cellRow (faces.map (.move μ 2)) ids = cellRow faces ids := by
  rw [cellRow, cellRow, facesOf_move μ hids]
  refine congrArg (SparseRow.gather signTotal) (List.map_congr_left fun f hf => ?_)
  have hne : facesOf faces ids ≠ [] := by
    simpa [facesOf] using List.ne_nil_of_mem hf
  rw [Cone.apex_move μ hne, getD_map_of_lt _ (hids f hf) default default, Cone.sign_move]

end Faces

/-! ## Dual parts -/

/-- A dual part after a move. -/
noncomputable def DualPart.move (p : DualPart ℝ) : DualPart ℝ :=
  { p with halfVolume := μ.factor ^ 3 * p.halfVolume, facePart := μ.factor ^ 2 • p.facePart }

theorem dualPart_move (hn : n.Coherent) (hv : n.VerticesBelow vertices.length) (x y : Vec3 ℝ)
    {e : Nat} (he : e < n.edges.length) :
    dualPart (vertices.map μ.apply) n (μ.apply x) (μ.apply y) e =
      (dualPart vertices n x y e).move μ := by
  have hmem : n.edges.getD e (0, 0) ∈ n.edges := by
    rw [List.getD_eq_getElem _ _ he]
    exact List.getElem_mem he
  obtain ⟨hfst, hsnd⟩ := hn.ends_lt hv hmem
  simp only [dualPart, DualPart.move, getD_map_of_lt μ.apply hfst 0 0,
    getD_map_of_lt μ.apply hsnd 0 0, Dual.halfVolume_move, Dual.facePart_move]

theorem dualParts_move (hn : n.Coherent) (hv : n.VerticesBelow vertices.length)
    {faces : List (EntityGeometry ℝ)} (hfaces : faces.length = n.loops.length) {ids : List Nat}
    (hids : ids ∈ n.cellFaces) (hvolume : Cone.cellVolume (facesOf faces ids) ≠ 0) :
    dualParts (vertices.map μ.apply) n (faces.map (.move μ 2)) (edgesOfFaces n) ids =
      (dualParts vertices n faces (edgesOfFaces n) ids).map (.move μ) := by
  have hlt : ∀ f ∈ ids, f < faces.length := fun f hf => hfaces ▸ hn.face_lt ids hids f hf
  rw [dualParts, dualParts, cellCenter_facesOf_move μ hlt hvolume, List.map_flatMap]
  refine List.flatMap_congr fun f hf => ?_
  rw [getD_map_of_lt _ (hlt f hf) default default, List.map_map]
  exact List.map_congr_left fun e he =>
    dualPart_move μ hn hv _ _ (lt_of_mem_edgesOfFaces hn (hfaces ▸ hlt f hf) he)

theorem vertexRow_move (parts : List (DualPart ℝ)) :
    vertexRow (parts.map (.move μ)) =
      (vertexRow parts).map (Prod.map id (μ.factor ^ 3 * ·)) := by
  rw [vertexRow, vertexRow, ← SparseRow.gather_map (total_map_mul (μ.factor ^ 3)),
    List.flatMap_map, List.map_flatMap]
  rfl

theorem edgeRow_move (parts : List (DualPart ℝ)) :
    edgeRow (parts.map (.move μ)) = (edgeRow parts).map (Prod.map id (μ.factor ^ 2 • ·)) := by
  rw [edgeRow, edgeRow, ← SparseRow.gather_map (total_map_smul (μ.factor ^ 2)), List.map_map,
    List.map_map]
  rfl

/-! ## Meshes -/

/-- **The mesh with moved vertices** is the moved mesh. -/
theorem assemble_move (hn : n.Coherent) (hv : n.VerticesBelow vertices.length)
    (hloops : ∀ l ∈ n.loops, Polygon.fanArea (corners vertices l) ≠ 0)
    (hcells : ∀ ids ∈ n.cellFaces,
      Cone.cellVolume (facesOf (faceGeometries vertices n) ids) ≠ 0) :
    assemble (vertices.map μ.apply) n = (assemble vertices n).move μ := by
  have hfaces : (faceGeometries vertices n).length = n.loops.length := by simp [faceGeometries]
  have hlt : ∀ ids ∈ n.cellFaces, ∀ f ∈ ids, f < (faceGeometries vertices n).length :=
    fun ids hids f hf => hfaces ▸ hn.face_lt ids hids f hf
  have hcenters := map_eq_map_map fun ids hids =>
    cellCenter_facesOf_move μ (hlt ids hids) (hcells ids hids)
  have hvolumes := map_eq_map_map fun ids hids =>
    cellVolume_facesOf_move μ (hlt ids hids) (hcells ids hids)
  have hrows := List.map_congr_left fun ids hids => cellRow_move μ (hlt ids hids)
  have hparts := map_eq_map_map fun ids hids =>
    dualParts_move μ hn hv hfaces hids (hcells ids hids)
  have hboundary : ((List.range n.loops.length).filter n.isListedOnce).map (fun f =>
      (((faceGeometries vertices n).map (EntityGeometry.move μ 2)).getD f default).center) =
        (((List.range n.loops.length).filter n.isListedOnce).map fun f =>
          ((faceGeometries vertices n).getD f default).center).map μ.apply := by
    refine map_eq_map_map fun f hf => ?_
    have hf : f < (faceGeometries vertices n).length :=
      hfaces ▸ List.mem_range.1 (List.mem_filter.1 hf).1
    rw [getD_map_of_lt _ hf default default]
    rfl
  have hedges : (n.loops.map (faceRow n)).map SparseRow.columns = edgesOfFaces n := rfl
  simp only [assemble, faceGeometries_move μ hv hloops, hcenters, hvolumes, hrows, hedges, hparts,
    hboundary]
  simp only [PolyhedralMesh.move, MeshTables.move, List.map_map, Function.comp_def,
    vertexRow_move, edgeRow_move, SparseRow.columns_map, SparseRow.values_map]
  rfl

end PolyhedralMesh

/-! ## Caches -/

namespace MeshTables

variable (μ : Move) {m : MeshTables ℝ}

theorem point_move {v : Nat} (hv : v < m.vertexPoints.length) :
    (m.move μ).point v = μ.apply (m.point v) :=
  getD_map_of_lt μ.apply hv 0 0

theorem segment_move {e : Nat} (he : m.HasEnds e) :
    (m.move μ).segment e = (m.segment e).move μ 1 := by
  obtain ⟨-, hfst, hsnd⟩ := he
  have hends : (m.move μ).ends e = m.ends e := rfl
  rw [segment, hends, point_move μ hfst, point_move μ hsnd, EntityGeometry.ofSegment_move]
  rfl

theorem face_move {f : Nat} (hcenter : f < m.faceCenters.length) (harea : f < m.faceAreas.length) :
    (m.move μ).face f = (m.face f).move μ 2 := by
  have hread : (m.move μ).faceCenters.getD f 0 = μ.apply (m.faceCenters.getD f 0) :=
    getD_map_of_lt μ.apply hcenter 0 0
  have hmeasure : (m.move μ).faceAreas.getD f 0 = μ.factor ^ 2 * m.faceAreas.getD f 0 :=
    getD_map_of_lt (μ.factor ^ 2 * ·) harea 0 0
  rw [face, hread, hmeasure]
  rfl

theorem sideArea_move {f e : Nat} (hcenter : f < m.faceCenters.length)
    (harea : f < m.faceAreas.length) (he : m.HasEnds e) :
    (m.move μ).sideArea f e = μ.factor ^ 2 * m.sideArea f e := by
  obtain ⟨-, hfst, hsnd⟩ := he
  have hends : (m.move μ).ends e = m.ends e := rfl
  rw [sideArea, hends, point_move μ hfst, point_move μ hsnd, face_move μ hcenter harea,
    EntityGeometry.move, triangleArea_move]
  rfl

end MeshTables

namespace CellCache

variable (μ : Move) {m : MeshTables ℝ} {c : Nat}

/-- The interpolation weights do not change. -/
theorem weights_move {s : ℝ} (hs : s ≠ 0) (V : ℝ) (vs : List ℝ) :
    (vs.map (s * ·)).map (· * (1 / (s * V))) = vs.map (· * (1 / V)) := by
  rw [List.map_map]
  refine List.map_congr_left fun v _ => ?_
  rw [Function.comp_apply, one_div, one_div, mul_inv_rev, mul_comm s v, mul_assoc, ← mul_assoc s,
    mul_comm s V⁻¹, mul_assoc V⁻¹, mul_inv_cancel₀ hs, mul_one]

theorem height_move (face : EntityGeometry ℝ) (x : Vec3 ℝ) :
    |(face.move μ 2).unit.dot ((face.move μ 2).center - μ.apply x)| =
      μ.factor * |face.unit.dot (face.center - x)| := by
  rw [EntityGeometry.move, μ.apply_sub_apply, Vec3.dot_smul, abs_mul, abs_of_pos μ.factor_pos]

/-- **The cache of a cell of moved tables** is the moved cache. -/
theorem ofTables_move (h : m.Consistent c) :
    ofTables (m.move μ) c .all = (ofTables m c .all).move μ := by
  have hcenter : (m.move μ).cellCenters.getD c 0 = μ.apply (m.cellCenters.getD c 0) :=
    getD_map_of_lt μ.apply h.center_lt 0 0
  have hvolume : (m.move μ).cellVolumes.getD c 0 = μ.factor ^ 3 * m.cellVolumes.getD c 0 :=
    getD_map_of_lt (μ.factor ^ 3 * ·) h.volume_lt 0 0
  have hdual : (m.move μ).cellDualVolumes.getD c [] =
      (m.cellDualVolumes.getD c []).map (μ.factor ^ 3 * ·) :=
    getD_map_of_lt _ h.dualVolumes_lt [] []
  have hface : ∀ f ∈ m.cellFaces.getD c [], (m.move μ).face f = (m.face f).move μ 2 :=
    fun f hf => m.face_move μ (h.face_lt f hf).1 (h.face_lt f hf).2.2.1
  have hpoints := map_eq_map_map fun v hv => m.point_move μ (h.vertex_lt v hv)
  have hsegments := map_eq_map_map fun e he => m.segment_move μ (h.hasEnds he)
  have hfaces := map_eq_map_map hface
  have hheights : (m.cellFaces.getD c []).map (fun f => Scalar.abs (((m.move μ).face f).unit.dot
      (((m.move μ).face f).center - μ.apply (m.cellCenters.getD c 0)))) =
        ((m.cellFaces.getD c []).map fun f => Scalar.abs ((m.face f).unit.dot
          ((m.face f).center - m.cellCenters.getD c 0))).map (μ.factor * ·) := by
    refine map_eq_map_map fun f hf => ?_
    rw [hface f hf]
    exact height_move μ _ _
  have hareas : (m.cellFaces.getD c []).flatMap (fun f =>
      (m.faceEdges.getD f []).map ((m.move μ).sideArea f)) =
        ((m.cellFaces.getD c []).flatMap fun f => (m.faceEdges.getD f []).map (m.sideArea f)).map
          (μ.factor ^ 2 * ·) := by
    rw [List.map_flatMap]
    refine List.flatMap_congr fun f hf => map_eq_map_map fun e he => ?_
    exact m.sideArea_move μ (h.face_lt f hf).1 (h.face_lt f hf).2.2.1
      (h.hasEnds (h.faceEdges_mem f hf e he))
  simp only [ofTables, CapabilitySet.contains_all, if_true, MeshTables.pointsOfCell, hcenter,
    hvolume, hdual, weights_move (μ.factor_pow_pos 3).ne']
  rw [CellCache.mk.injEq]
  refine ⟨rfl, rfl, rfl, rfl, rfl, rfl, hpoints, rfl, rfl, hsegments, rfl, rfl, rfl, hfaces,
    hheights, rfl, rfl, hareas⟩

end CellCache

/-! ## Construction -/

/-- **Mesh quantities move with the mesh.**  If a mesh can be built, and no sum of areas or volumes
by which it divides is zero, the mesh with moved vertices can be built, too.  It has the same
connectivity, directions, orientations, normals and boundary; its centers are moved, and its areas,
dual faces, volumes and dual volumes are stretched by powers of the factor.  In the cache of every
cell the interpolation weights and the directions of edges and faces stay, and lengths, heights and
the areas of triangles are stretched. -/
theorem PolyhedralMesh.build_move (μ : Move) {vertices : List (Vec3 ℝ)} {cells : List (List Loop)}
    {m : PolyhedralMesh ℝ} (hm : build vertices cells = .ok m)
    (hloops : ∀ l ∈ (Numbering.ofCells cells).loops, Polygon.fanArea (corners vertices l) ≠ 0)
    (hvolumes : ∀ V ∈ m.cellVolumes, V ≠ 0) :
    build (vertices.map μ.apply) cells = .ok (m.move μ) ∧
      ∀ c < m.cellCount, ∃ cm, CellCache.build m.toMeshTables c .all = .ok cm ∧
        CellCache.build (m.move μ).toMeshTables c .all = .ok (cm.move μ) := by
  have hmoved : build (vertices.map μ.apply) cells = .ok (m.move μ) := by
    obtain ⟨hcheck, hfit, rfl⟩ := build_eq_ok.1 hm
    refine build_eq_ok.2 ⟨by rwa [List.length_map], hfit, ?_⟩
    refine assemble_move μ (Numbering.coherent_ofCells cells)
      (fun l hl v hv => Numbering.vertex_lt_of_mem_loops hcheck hl hv) hloops fun ids hids => ?_
    exact hvolumes _ (List.mem_map_of_mem hids)
  refine ⟨hmoved, fun c hc => ?_⟩
  have hconsistent := consistent_of_build hm hc
  have hc' : c < (m.move μ).cellCount := by
    simpa [MeshTables.cellCount, PolyhedralMesh.move, MeshTables.move] using hc
  refine ⟨_, CellCache.build_eq_ofTables hconsistent CapabilitySet.closed_all, ?_⟩
  rw [CellCache.build_eq_ofTables (consistent_of_build hmoved hc') CapabilitySet.closed_all]
  exact congrArg Except.ok (CellCache.ofTables_move μ hconsistent)

/-- The unit tetrahedron of twice the size, away from the origin. -/
theorem PolyhedralMesh.build_move_unitMesh :
    ∃ μ : Move, build [⟨1, 0, 0⟩, ⟨3, 0, 0⟩, ⟨1, 2, 0⟩, ⟨1, 0, 2⟩] tetrahedronCells =
        .ok (Tetrahedron.unitMesh.move μ) ∧
      (Tetrahedron.unitMesh.move μ).cellVolumes = Tetrahedron.unitMesh.cellVolumes.map (8 * ·) ∧
      ∃ cm, CellCache.build Tetrahedron.unitMesh.toMeshTables 0 .all = .ok cm ∧
        CellCache.build (Tetrahedron.unitMesh.move μ).toMeshTables 0 .all = .ok (cm.move μ) := by
  have hloops : ∀ l ∈ (Numbering.ofCells tetrahedronCells).loops, Polygon.fanArea
      (corners [(0 : Vec3 ℝ), ⟨1, 0, 0⟩, ⟨0, 1, 0⟩, ⟨0, 0, 1⟩] l) ≠ 0 := by
    intro l hl
    obtain ⟨f, hf, rfl⟩ := List.getElem_of_mem hl
    have hmem : f ∈ Tetrahedron.unitMesh.cellFaces.getD 0 [] := by
      rw [Tetrahedron.cellFaces_unitMesh]
      simp only [Tetrahedron.numbering, List.length_cons, List.length_nil] at hf
      simp only [List.mem_cons, List.not_mem_nil, or_false]
      omega
    have hpos := Tetrahedron.regularCell_unitMesh.measure_pos Tetrahedron.build_unitMesh hmem
    rw [face_of_build Tetrahedron.build_unitMesh hmem, polygon, Numbering.loop,
      List.getD_eq_getElem _ _ hf] at hpos
    exact (Polygon.fanArea_pos hpos).ne'
  have hvolumes : ∀ V ∈ Tetrahedron.unitMesh.cellVolumes, V ≠ 0 := by
    intro V hV
    obtain ⟨c, hc, rfl⟩ := List.getElem_of_mem hV
    have hcount : Tetrahedron.unitMesh.cellVolumes.length = 1 := by
      simp [Tetrahedron.unitMesh, Tetrahedron.mesh, assemble, Tetrahedron.numbering]
    obtain rfl : c = 0 := by omega
    have hpos := Tetrahedron.regularCell_unitMesh.volume_pos Tetrahedron.build_unitMesh
    rw [List.getD_eq_getElem _ _ hc] at hpos
    exact hpos.ne'
  let μ : Move := ⟨2, two_pos, ⟨1, 0, 0⟩⟩
  have hvertices : [(0 : Vec3 ℝ), ⟨1, 0, 0⟩, ⟨0, 1, 0⟩, ⟨0, 0, 1⟩].map μ.apply =
      [⟨1, 0, 0⟩, ⟨3, 0, 0⟩, ⟨1, 2, 0⟩, ⟨1, 0, 2⟩] := by
    simp [μ, Move.apply, Vec3.ext_iff]
    norm_num
  obtain ⟨hbuild, hcaches⟩ := build_move μ Tetrahedron.build_unitMesh hloops hvolumes
  rw [hvertices] at hbuild
  refine ⟨μ, hbuild, ?_, hcaches 0 Tetrahedron.regularCell_unitMesh.lt⟩
  simp [PolyhedralMesh.move, MeshTables.move, μ]
  norm_num

end Polyfield
