import Polyfield.Proofs.MeshNumbering
import Polyfield.Proofs.TetrahedronCell

/-!
# Outward faces and the boundary

The orientation of a face of a cell says on which side of the face the cell lies.  It is found from
the mean of the face centers of the cell, which is no vertex of the cell but lies inside of it.

* `MeshTables.LiesBehind`, `MeshTables.LiesBefore` : a cell lies on one side of the plane of a face;
* `PolyhedralMesh.OutwardFaces` : the orientations of a mesh point out of its cells, and two cells
  on opposite sides of a face orient it in opposite ways;
* `Numbering.count_listings` : a face is listed as often as loops with its vertices are;
* `PolyhedralMesh.fitsByte_cellFaceSigns` : bytes can hold the orientations;
* `PolyhedralMesh.ListsBoundary` : the boundary of a mesh is made of the faces that are listed once;
* `PolyhedralMesh.orientations_and_boundary` : both hold of every new mesh.
-/

namespace Polyfield

/-! ## Sides of a face -/

namespace MeshTables

/-- A cell lies behind a face: the normal of the face points away from it. -/
structure LiesBehind (m : MeshTables ℝ) (c f : Nat) : Prop where
  elevation_nonpos : ∀ v ∈ m.cellVertices.getD c [], m.elevation f v ≤ 0
  off_plane : ∃ v ∈ m.cellVertices.getD c [], m.elevation f v ≠ 0

/-- A cell lies before a face: the normal of the face points towards it. -/
structure LiesBefore (m : MeshTables ℝ) (c f : Nat) : Prop where
  elevation_nonneg : ∀ v ∈ m.cellVertices.getD c [], 0 ≤ m.elevation f v
  off_plane : ∃ v ∈ m.cellVertices.getD c [], m.elevation f v ≠ 0

end MeshTables

namespace PolyhedralMesh

/-- The orientations of the faces of a mesh are outward.  A cell counts if it lists each face once,
all of positive area. -/
structure OutwardFaces (cells : List (List Loop)) (m : PolyhedralMesh ℝ) : Prop where
  sign_of_liesBehind : ∀ (c k f : Nat), ProperCell cells m c →
    (m.cellFaces.getD c [])[k]? = some f → m.LiesBehind c f →
    (m.cellFaceSigns.getD c [])[k]? = some 1
  sign_of_liesBefore : ∀ (c k f : Nat), ProperCell cells m c →
    (m.cellFaces.getD c [])[k]? = some f → m.LiesBefore c f →
    (m.cellFaceSigns.getD c [])[k]? = some (-1)
  /-- Two cells on opposite sides of a face orient it in opposite ways. -/
  opposite : ∀ (c₁ c₂ k₁ k₂ f : Nat), ProperCell cells m c₁ → ProperCell cells m c₂ →
    (m.cellFaces.getD c₁ [])[k₁]? = some f → (m.cellFaces.getD c₂ [])[k₂]? = some f →
    m.LiesBehind c₁ f ∧ m.LiesBefore c₂ f ∨ m.LiesBefore c₁ f ∧ m.LiesBehind c₂ f →
    ∃ s : Int, (s = 1 ∨ s = -1) ∧ (m.cellFaceSigns.getD c₁ [])[k₁]? = some s ∧
      (m.cellFaceSigns.getD c₂ [])[k₂]? = some (-s)

section Signs

variable {R : Type} [Scalar R] {vertices : List (Vec3 R)} {cells : List (List Loop)}
  {m : PolyhedralMesh R}

/-- The orientations of a cell stand in the order of its faces. -/
theorem getElem?_cellFaceSigns (hm : build vertices cells = .ok m) {c k f : Nat}
    (hk : (m.cellFaces.getD c [])[k]? = some f) :
    (m.cellFaceSigns.getD c [])[k]? = some (m.faceSign c f) := by
  have hlength : (m.cellFaces.getD c []).length = (m.cellFaceSigns.getD c []).length := by
    obtain ⟨-, -, rfl⟩ := build_eq_ok.1 hm
    rw [cellFaces_getD, cellFaceSigns_getD, SparseRow.length_values]
  have hsigns : (m.cellFaces.getD c []).map (m.faceSign c) = m.cellFaceSigns.getD c [] :=
    map_lookup_zip (nodup_cellFaces hm c) hlength 0
  rw [← hsigns, List.getElem?_map, hk, Option.map_some]

end Signs

/-- **The orientations of a new mesh are outward.** -/
theorem outwardFaces_of_build {vertices : List (Vec3 ℝ)} {cells : List (List Loop)}
    {m : PolyhedralMesh ℝ} (hm : build vertices cells = .ok m) : OutwardFaces cells m := by
  have hbehind : ∀ (c k f : Nat), ProperCell cells m c → (m.cellFaces.getD c [])[k]? = some f →
      m.LiesBehind c f → (m.cellFaceSigns.getD c [])[k]? = some 1 := by
    intro c k f hc hk hside
    have hsign := hc.faceSign_eq_one hm (List.mem_of_getElem? hk) hside.elevation_nonpos
      hside.off_plane
    rw [getElem?_cellFaceSigns hm hk, hsign]
  have hbefore : ∀ (c k f : Nat), ProperCell cells m c → (m.cellFaces.getD c [])[k]? = some f →
      m.LiesBefore c f → (m.cellFaceSigns.getD c [])[k]? = some (-1) := by
    intro c k f hc hk hside
    have hsign := hc.faceSign_eq_neg_one hm (List.mem_of_getElem? hk) hside.elevation_nonneg
      hside.off_plane
    rw [getElem?_cellFaceSigns hm hk, hsign]
  refine ⟨hbehind, hbefore, ?_⟩
  intro c₁ c₂ k₁ k₂ f hc₁ hc₂ hk₁ hk₂ hsides
  rcases hsides with ⟨h₁, h₂⟩ | ⟨h₁, h₂⟩
  · exact ⟨1, .inl rfl, hbehind c₁ k₁ f hc₁ hk₁ h₁, hbefore c₂ k₂ f hc₂ hk₂ h₂⟩
  · refine ⟨-1, .inr rfl, hbefore c₁ k₁ f hc₁ hk₁ h₁, ?_⟩
    rw [neg_neg]
    exact hbehind c₂ k₂ f hc₂ hk₂ h₂

end PolyhedralMesh

/-! ## Listings -/

/-- **A face is listed as often as loops with its vertices are.** -/
theorem Numbering.count_listings {cells : List (List Loop)} {f : Nat} {l : Loop}
    (hf : (ofCells cells).loops[f]? = some l) :
    (ofCells cells).cellFaces.flatten.count f = (cells.flatten.map Loop.key).count l.key := by
  have hflatten : (ofCells cells).cellFaces.flatten =
      cells.flatten.map fun l' => ((ofCells cells).loops.map Loop.key).idxOf l'.key := by
    simp only [ofCells, List.map_flatten]
  have hnd : ((ofCells cells).loops.map Loop.key).Nodup := nodup_firstSeen Loop.key cells.flatten
  rw [hflatten, List.count_eq_countP, List.count_eq_countP, List.countP_map, List.countP_map]
  refine List.countP_congr fun l' hl' => ?_
  -- a loop is given the number at which its key stands
  have hkey : l'.key ∈ (ofCells cells).loops.map Loop.key := key_mem_firstSeen hl'
  have hnumber := idxOf_eq_iff_getElem? hnd hkey (i := f)
  rw [List.getElem?_map, hf, Option.map_some, Option.some.injEq] at hnumber
  simp only [Function.comp_apply, beq_iff_eq, hnumber]
  exact eq_comm

theorem Numbering.isListedOnce_iff {cells : List (List Loop)} {f : Nat} {l : Loop}
    (hf : (ofCells cells).loops[f]? = some l) : (ofCells cells).isListedOnce f = true ↔
      (cells.flatten.map Loop.key).count l.key = 1 := by
  rw [isListedOnce, beq_iff_eq, count_listings hf]

/-! ## Orientations in bytes -/

/-- What an element contributes to a list, it contributes as often as it is listed. -/
theorem count_le_count_flatMap {α β : Type} [DecidableEq α] [BEq β] [LawfulBEq β]
    (g : α → List β) {a : α} {b : β} (h : b ∈ g a) (xs : List α) :
    xs.count a ≤ (xs.flatMap g).count b := by
  induction xs with
  | nil => exact Nat.le_refl 0
  | cons x xs ih =>
    rw [List.flatMap_cons, List.count_append, List.count_cons]
    by_cases hx : x = a
    · have hb : 1 ≤ (g x).count b := List.one_le_count_iff.2 (hx ▸ h)
      simp only [hx, beq_self_eq_true, if_true] at hb ⊢
      omega
    · simp only [beq_iff_eq, hx, if_false]
      omega

namespace Numbering

variable {cells : List (List Loop)} {k : Nat}

/-- Every face has an edge. -/
theorem exists_mem_loopEdges (hcheck : PolyhedralMesh.checkCells k cells = .ok ()) {f : Nat}
    (hf : f < (ofCells cells).loops.length) :
    ∃ e, e ∈ ((ofCells cells).loops.map Loop.edges).getD f [] := by
  have hlength := three_le_length_of_mem_loops hcheck (loop_mem hf)
  have hsides : cyclicPairs ((ofCells cells).loop f) ≠ [] := by
    refine List.ne_nil_of_length_pos ?_
    rw [length_cyclicPairs]
    omega
  obtain ⟨s, hs⟩ := List.exists_mem_of_ne_nil _ hsides
  refine ⟨Edge.ofSide s, ?_⟩
  rw [getD_map_eq (show Loop.edges [] = [] from rfl)]
  exact mem_firstSeen_id.2 (List.mem_map_of_mem hs)

/-- A cell lists a face at most 127 times, for it meets the edges of the face as often. -/
theorem count_le_of_meetingsFit (hcheck : PolyhedralMesh.checkCells k cells = .ok ())
    (hfit : (ofCells cells).meetingsFit = true) {ids : List Nat}
    (hids : ids ∈ (ofCells cells).cellFaces) (f : Nat) : ids.count f ≤ 127 := by
  by_cases hf : f ∈ ids
  · obtain ⟨c, hc, rfl⟩ := List.getElem_of_mem hids
    have hlt : f < (ofCells cells).loops.length := by
      refine lt_of_mem_facesOfCell (c := c) ?_
      rwa [facesOfCell, List.getD_eq_getElem _ _ hc]
    obtain ⟨e, he⟩ := exists_mem_loopEdges hcheck hlt
    have hbyte := List.all_eq_true.1 (List.all_eq_true.1 hfit _ hids) e
      (mem_firstSeen_id.2 (List.mem_flatMap.2 ⟨f, hf, he⟩))
    have hcount := count_le_count_flatMap
      (fun f => ((ofCells cells).loops.map Loop.edges).getD f []) he (ofCells cells).cellFaces[c]
    simp only [fitsByte, Bool.and_eq_true, decide_eq_true_eq] at hbyte
    omega
  · rw [List.count_eq_zero_of_not_mem hf]
    exact Nat.zero_le 127

end Numbering

/-- **The orientations of a new mesh fit into bytes**, without a test of their own. -/
theorem PolyhedralMesh.fitsByte_cellFaceSigns {R : Type} [Scalar R] {vertices : List (Vec3 R)}
    {cells : List (List Loop)} {m : PolyhedralMesh R} (hm : build vertices cells = .ok m)
    {signs : List Int} (hsigns : signs ∈ m.cellFaceSigns) {s : Int} (hs : s ∈ signs) :
    fitsByte s = true := by
  obtain ⟨hcheck, hfit, rfl⟩ := build_eq_ok.1 hm
  simp only [assemble, List.map_map, List.mem_map] at hsigns
  obtain ⟨ids, hids, rfl⟩ := hsigns
  simp only [Function.comp_apply, cellRow, SparseRow.values, SparseRow.gather, List.map_map,
    List.mem_map] at hs
  obtain ⟨f, -, rfl⟩ := hs
  rw [SparseRow.valuesAt_map]
  refine fitsByte_signTotal (fun x hx => ?_) ?_
  · rw [List.eq_of_mem_replicate hx]
    exact Cone.sign_eq _ _
  · rw [List.length_replicate]
    exact Numbering.count_le_of_meetingsFit hcheck (Bool.and_eq_true_iff.1 hfit).2 hids f

/-! ## The boundary -/

namespace PolyhedralMesh

variable {R : Type}

/-- The boundary of a mesh lists the faces that are listed once among the loops of all cells. -/
structure ListsBoundary (cells : List (List Loop)) (m : PolyhedralMesh R) : Prop where
  increasing : m.boundaryFaces.Pairwise (· < ·)
  mem_iff : ∀ f, f ∈ m.boundaryFaces ↔ ∃ l, (Numbering.ofCells cells).loops[f]? = some l ∧
    (cells.flatten.map Loop.key).count l.key = 1
  isBoundaryFace_iff : ∀ f, m.isBoundaryFace f = true ↔ f ∈ m.boundaryFaces
  /-- Entry by entry, the centers are those of the faces. -/
  centers : m.boundaryFaceCenters.map some = m.boundaryFaces.map fun f => m.faceCenters[f]?

variable [Scalar R] {vertices : List (Vec3 R)} {cells : List (List Loop)}

theorem mem_boundaryFaces_assemble {n : Numbering} {f : Nat} :
    f ∈ (assemble vertices n).boundaryFaces ↔ f < n.loops.length ∧ n.isListedOnce f = true := by
  simp [assemble]

/-- **The boundary of a new mesh is made of the faces that are listed once.** -/
theorem listsBoundary_assemble (vertices : List (Vec3 R)) (cells : List (List Loop)) :
    ListsBoundary cells (assemble vertices (.ofCells cells)) where
  increasing := List.pairwise_lt_range.filter _
  mem_iff f := by
    rw [mem_boundaryFaces_assemble]
    constructor
    · rintro ⟨hlt, honce⟩
      have hf := List.getElem?_eq_getElem hlt
      exact ⟨_, hf, (Numbering.isListedOnce_iff hf).1 honce⟩
    · rintro ⟨l, hf, honce⟩
      exact ⟨(List.getElem?_eq_some_iff.1 hf).1, (Numbering.isListedOnce_iff hf).2 honce⟩
  isBoundaryFace_iff f := by
    rw [mem_boundaryFaces_assemble, isBoundaryFace]
    by_cases hlt : f < (Numbering.ofCells cells).loops.length
    · simp [assemble, List.getD, hlt]
    · simp [assemble, List.getD, hlt]
  centers := by
    have hcenter : ∀ f ∈ (assemble vertices (.ofCells cells)).boundaryFaces,
        some ((faceGeometries vertices (.ofCells cells)).getD f default).center =
          (assemble vertices (.ofCells cells)).faceCenters[f]? := by
      intro f hf
      have hlt : f < (faceGeometries vertices (.ofCells cells)).length := by
        simpa [faceGeometries] using (mem_boundaryFaces_assemble.1 hf).1
      simp [assemble, List.getD, hlt]
    rw [← List.map_congr_left hcenter]
    simp [assemble]

/-- **Orientations point outward, and the boundary is what is listed once.**  With real numbers, a
face is oriented by the side on which a cell lies, if the cell lists every face once and all its
faces have positive area.  In any arithmetic, the boundary faces of a mesh are those that are listed
once among the loops of all cells, in increasing order, with their centers. -/
theorem orientations_and_boundary :
    (∀ (vertices : List (Vec3 ℝ)) (cells : List (List Loop)) (m : PolyhedralMesh ℝ),
      build vertices cells = .ok m → OutwardFaces cells m) ∧
    ∀ (R : Type) [Scalar R] (vertices : List (Vec3 R)) (cells : List (List Loop))
      (m : PolyhedralMesh R), build vertices cells = .ok m → ListsBoundary cells m := by
  refine ⟨fun vertices cells m hm => outwardFaces_of_build hm, ?_⟩
  intro R _ vertices cells m hm
  obtain ⟨-, -, rfl⟩ := build_eq_ok.1 hm
  exact listsBoundary_assemble vertices cells

end PolyhedralMesh

/-- The unit tetrahedron lies behind its third face, which is a boundary face. -/
theorem orientations_and_boundary_unitMesh :
    Tetrahedron.unitMesh.LiesBehind 0 2 ∧
      (Tetrahedron.unitMesh.cellFaceSigns.getD 0 [])[2]? = some 1 ∧
      Tetrahedron.unitMesh.isBoundaryFace 2 = true ∧
      (tetrahedronCells.flatten.map Loop.key).count (Loop.key [0, 3, 2]) = 1 := by
  obtain ⟨houtward, hboundary⟩ := PolyhedralMesh.orientations_and_boundary
  have hproper := Tetrahedron.regularCell_unitMesh.proper Tetrahedron.build_unitMesh
  have hvolume : 0 < (triangleVector (0 : Vec3 ℝ) ⟨1, 0, 0⟩ ⟨0, 1, 0⟩).dot (⟨0, 0, 1⟩ - 0) := by
    simp [triangleVector_eq, Vec3.cross, Vec3.dot]
  obtain ⟨hside, -, hoff⟩ := Tetrahedron.elevation_side Tetrahedron.unit_ne_zero
    (show 2 ∈ [0, 1, 2, 3] by decide)
  have hbehind : Tetrahedron.unitMesh.LiesBehind 0 2 := ⟨hside hvolume, hoff⟩
  have hsign := (houtward _ _ _ Tetrahedron.build_unitMesh).sign_of_liesBehind 0 2 2 hproper
    (by rw [Tetrahedron.cellFaces_unitMesh]; rfl) hbehind
  have hlists := hboundary _ _ _ _ Tetrahedron.build_unitMesh
  have hmem : 2 ∈ Tetrahedron.unitMesh.boundaryFaces := by
    rw [Tetrahedron.boundaryFaces_unitMesh]
    decide
  obtain ⟨l, hl, honce⟩ := (hlists.mem_iff 2).1 hmem
  have hloop : l = [0, 3, 2] := by
    rw [Tetrahedron.numbering] at hl
    exact (Option.some.inj hl).symm
  exact ⟨hbehind, hsign, (hlists.isBoundaryFace_iff 2).2 hmem, hloop ▸ honce⟩

end Polyfield
