import Polyfield.Proofs.BoundaryAverages
import Polyfield.Proofs.ConvexCombinations
import Polyfield.Proofs.EvaluationPoints
import Polyfield.Proofs.LocalNumbering
import Polyfield.Proofs.PartialCaches

/-!
# Evaluation inside a cell

Functions are evaluated only inside a cell: at convex combinations of its vertices, and on a face
at combinations of the corners of the face.  No cell has to be convex for this, but the areas and
volumes by which centers are divided have to be positive.

* `FunctionCall.mem_cellHull`, `FunctionCall.exists_mem_faceHull` : the points of the routines on a
  cell;
* `PolyhedralMesh.exists_mem_faceHull_of_boundaryNode` : the nodes on boundary faces;
* `FunctionCall.evaluates_inside` : all of these together, with what the results depend on.
-/

namespace Polyfield

/-! ## Nodes of simplices in a convex set -/

section Hulls

variable {S : Set (Vec3 ℝ)} (hS : Convex ℝ S)

include hS

theorem SimplexRule.HasNode.mem {n : Nat} {rule : SimplexRule ℝ n} (hrule : rule.IsInside)
    {ss : List (Simplex ℝ n)} (hss : ∀ s ∈ ss, ∀ x ∈ s.corners.toList, x ∈ S) {x : Vec3 ℝ}
    (hx : rule.HasNode ss x) : x ∈ S := by
  obtain ⟨s, hs, p, hp, rfl⟩ := hx
  exact hrule.point_mem hS (hss s hs) hp

theorem Simplex.centroid_mem {s : Simplex ℝ 3} (hs : ∀ x ∈ s.corners.toList, x ∈ S) :
    s.centroid ∈ S := by
  obtain ⟨⟨⟨corners⟩, hlength⟩, measure⟩ := s
  obtain ⟨a, b, c, rfl⟩ := List.length_eq_three.1 hlength
  have h := third_sum_mem hS (hs a (by simp)) (hs b (by simp)) (hs c (by simp))
  simpa [Simplex.centroid, add_assoc] using h

/-- The halves of the triangle between an edge and a face center. -/
theorem CellCache.FaceSide.half_mem {side : CellCache.FaceSide ℝ} {faceCenter : Vec3 ℝ}
    (hfirst : side.first ∈ S) (hsecond : side.second ∈ S) (hcenter : faceCenter ∈ S) :
    ∀ s ∈ [side.half faceCenter side.first, side.half faceCenter side.second],
      ∀ x ∈ s.corners.toList, x ∈ S := by
  have hmid := midpoint_mem hS hfirst hsecond
  simp [FaceSide.half, Simplex.triangle, hmid, hfirst, hsecond, hcenter]

end Hulls

/-! ## Nodes of a cache -/

namespace CellCache

variable {cells : List (List Loop)} {vertices : List (Vec3 ℝ)} {m : PolyhedralMesh ℝ}
  {c k f dim : Nat} {level : Level} {x : Vec3 ℝ}

section Face

/-- Only faces of the cell have points of evaluation. -/
theorem FacePoint.exists_face {R : Type} [Scalar R] {m : MeshTables R} {x : Vec3 R}
    (hx : (ofTables m c .all).FacePoint dim k x) : ∃ f, (m.cellFaces.getD c [])[k]? = some f := by
  have of_edges : ∀ edges, (ofTables m c .all).faceEdges k = .ok edges →
      k < (m.cellFaces.getD c []).length := by
    intro edges hedges
    obtain ⟨_, -, hedges⟩ := bind_eq_ok.1 hedges
    obtain ⟨_, hstop, -⟩ := bind_eq_ok.1 hedges
    have hlt := lt_of_fetch_eq_ok hstop
    rw [faceStarts_ofTables (CapabilitySet.contains_all _), length_offsetsFrom,
      List.length_map] at hlt
    omega
  have of_faces : ∀ face, fetch (ofTables m c .all).faces k = .ok face →
      k < (m.cellFaces.getD c []).length := by
    intro face hface
    have hlt := lt_of_fetch_eq_ok hface
    rwa [faces_ofTables (CapabilitySet.contains_all _), List.length_map] at hlt
  refine ⟨_, List.getElem?_eq_getElem ?_⟩
  obtain ⟨level, ⟨ss, hss, -⟩ | ⟨hlevel, ⟨samples, hsamples, -⟩ | hsplit⟩⟩ := hx
  · obtain ⟨edges, hedges, -⟩ := bind_eq_ok.1 hss
    exact of_edges edges hedges
  · obtain ⟨_, -, hsamples⟩ := bind_eq_ok.1 hsamples
    obtain ⟨face, hface, -⟩ := bind_eq_ok.1 hsamples
    exact of_faces face (liftM_eq_ok.1 hface)
  · cases level with
    | bary => exact absurd rfl hlevel
    | barySubdiv =>
      obtain ⟨face, sides, hface, -⟩ := hsplit
      exact of_faces face hface
    | higher =>
      obtain ⟨face, sides, hface, -⟩ := hsplit
      exact of_faces face hface
    | highest => exact hsplit.elim

variable (hm : PolyhedralMesh.build vertices cells = .ok m) (hc : c < m.cellCount)
  (hk : (m.cellFaces.getD c [])[k]? = some f) (hfan : 0 < Polygon.fanArea (m.polygon cells f))

include hm hc hk hfan

theorem faceNode_mem (hx : (ofTables m.toMeshTables c .all).FaceNode level k x) :
    x ∈ m.faceHull cells f := by
  obtain ⟨ss, hss, hx⟩ := hx
  rw [facePieces_ofTables (PolyhedralMesh.consistent_of_build hm hc)
    (fun j _ => CapabilitySet.contains_all j) hk] at hss
  obtain rfl := Except.ok.inj hss
  exact hx.mem (convex_convexHull ℝ _) (SimplexRule.isInside_triangle level) fun s hs =>
    PolyhedralMesh.triangles_mem hm (List.mem_of_getElem? hk) hfan hs

theorem fluxNode_mem (hlevel : level ≠ .bary)
    (hx : (ofTables m.toMeshTables c .all).FluxNode dim level k x) : x ∈ m.faceHull cells f := by
  obtain ⟨samples, hsamples, p, hp, rfl⟩ := hx
  have h := PolyhedralMesh.consistent_of_build hm hc
  have hneeds := CapabilitySet.contains_all .faceTriangles
  have hcorners := fun s hs =>
    PolyhedralMesh.centerFan_mem hm (List.mem_of_getElem? hk) hfan (s := s) hs
  obtain ⟨hface, hneeds', hfetch, htriangles⟩ :=
    fluxReads_ofTables h CapabilitySet.closed_all hneeds hk
  cases level with
  | bary => exact absurd rfl hlevel
  | barySubdiv =>
    rw [fluxSamples_barySubdiv h CapabilitySet.closed_all hneeds hk] at hsamples
    obtain rfl := Except.ok.inj hsamples
    obtain ⟨s, hs, rfl⟩ := List.mem_map.1 hp
    rw [centroid_eq]
    exact Simplex.centroid_mem (convex_convexHull ℝ _) (hcorners s hs)
  | _ =>
    simp only [fluxSamples, hface, hneeds', hfetch, htriangles, liftM_ok, ok_bind] at hsamples
    obtain ⟨rule, hrule, hsamples⟩ := bind_eq_ok.1 hsamples
    obtain rfl := SimplexRule.eq_triangle_of_triangleFor hrule
    obtain rfl := Except.ok.inj hsamples
    obtain ⟨s, hs, hp⟩ := List.mem_flatMap.1 hp
    obtain ⟨q, hq, rfl⟩ := List.mem_map.1 hp
    exact (SimplexRule.isInside_triangle _).point_mem (convex_convexHull ℝ _) (hcorners s hs)
      (p := q) hq

theorem splitNode_mem (hlevel : level ≠ .bary)
    (hx : (ofTables m.toMeshTables c .all).SplitNode level k x) : x ∈ m.faceHull cells f := by
  have hmem := List.mem_of_getElem? hk
  have hread := splitReads_ofTables (PolyhedralMesh.consistent_of_build hm hc) hk
  have hsides : ∀ face sides, fetch (ofTables m.toMeshTables c .all).faces k = .ok face →
      (ofTables m.toMeshTables c .all).faceSides k = .ok sides → ∀ side ∈ sides,
        ∀ s ∈ [side.half face.center side.first, side.half face.center side.second],
          ∀ x ∈ s.corners.toList, x ∈ m.faceHull cells f := by
    intro face sides hface hsides side hside
    obtain rfl := Except.ok.inj (hface.symm.trans hread.2.2.1)
    obtain rfl := Except.ok.inj (hsides.symm.trans hread.2.2.2)
    obtain ⟨e, he, rfl⟩ := List.mem_map.1 hside
    obtain ⟨hfirst, hsecond⟩ := PolyhedralMesh.ends_mem_faceHull hm hmem he
    exact FaceSide.half_mem (convex_convexHull ℝ _) hfirst hsecond
      (PolyhedralMesh.faceCenter_mem hm hmem hfan)
  cases level with
  | bary => exact absurd rfl hlevel
  | barySubdiv =>
    obtain ⟨face, sides, hface, hread, side, hside, hx⟩ := hx
    rw [halfCentroids_eq] at hx
    obtain ⟨s, hs, rfl⟩ : ∃ s ∈ [side.half face.center side.first,
        side.half face.center side.second], s.centroid = x := List.mem_map.1 hx
    exact Simplex.centroid_mem (convex_convexHull ℝ _)
      (hsides face sides hface hread side hside s hs)
  | higher =>
    obtain ⟨face, sides, hface, hread, side, hside, hx⟩ := hx
    exact hx.mem (convex_convexHull ℝ _) (SimplexRule.isInside_triangle _)
      (hsides face sides hface hread side hside)
  | highest => exact hx.elim

/-- **The points of evaluation that belong to a face are combinations of its corners.** -/
theorem FacePoint.mem (hx : (ofTables m.toMeshTables c .all).FacePoint dim k x) :
    x ∈ m.faceHull cells f := by
  obtain ⟨level, hx | ⟨hlevel, hx | hx⟩⟩ := hx
  · exact faceNode_mem hm hc hk hfan hx
  · exact fluxNode_mem hm hc hk hfan hlevel hx
  · exact splitNode_mem hm hc hk hfan hlevel hx

end Face

/-- A flux at level `bary` evaluates at the cell center. -/
theorem eq_center_of_fluxNode {R : Type} [Scalar R] {cm : CellCache R} {x : Vec3 R}
    (hx : cm.FluxNode dim .bary k x) : x = cm.center := by
  obtain ⟨samples, hsamples, p, hp, rfl⟩ := hx
  obtain ⟨_, -, hsamples⟩ := bind_eq_ok.1 hsamples
  obtain ⟨face, -, hsamples⟩ := bind_eq_ok.1 hsamples
  obtain rfl := Except.ok.inj hsamples
  rw [List.mem_singleton.1 hp]

/-- **The points of evaluation in a cell are combinations of its vertices.** -/
theorem cellNode_mem (hm : PolyhedralMesh.build vertices cells = .ok m) (hc : c < m.cellCount)
    (hfan : ∀ f ∈ m.cellFaces.getD c [], 0 < Polygon.fanArea (m.polygon cells f))
    (hvolume : 0 < m.cellVolumes.getD c 0)
    (hx : (ofTables m.toMeshTables c .all).CellNode level x) : x ∈ m.cellHull c := by
  obtain ⟨ss, hss, hx⟩ := hx
  rw [cellPieces_ofTables (PolyhedralMesh.consistent_of_build hm hc)
    (fun j _ => CapabilitySet.contains_all j) (CapabilitySet.contains_all _)] at hss
  obtain rfl := Except.ok.inj hss
  exact hx.mem (convex_convexHull ℝ _) (SimplexRule.isInside_tetra level) fun s hs =>
    PolyhedralMesh.pieces_mem hm hfan hvolume hs

end CellCache

/-! ## Routines on a cell -/

namespace FunctionCall

variable {R : Type} [Scalar R] {cm : CellCache R} {call : FunctionCall} {k dim : Nat} {x : Vec3 R}

/-- The points of a routine that keeps to a face belong to the face. -/
theorem facePoint_of_face (hface : call.face? = some k) (hx : call.EvaluatesAt cm dim x) :
    cm.FacePoint dim k x := by
  cases call with
  | faceAverage face level | integrateFace face level =>
    obtain rfl := Option.some.inj hface
    exact ⟨level, .inl hx⟩
  | faceFlux face level | functionFlux face level | tensorFlux face level =>
    obtain ⟨hlevel, rfl⟩ : level ≠ .bary ∧ face = k := by simpa [face?] using hface
    exact ⟨level, .inr ⟨hlevel, .inl hx⟩⟩
  | vertexFlux face level | functionVertexFlux face level =>
    obtain ⟨hlevel, rfl⟩ : level ≠ .bary ∧ face = k := by simpa [face?] using hface
    exact ⟨level, .inr ⟨hlevel, .inr hx⟩⟩
  | _ => cases hface

/-- Every point of a routine is the cell center, lies in a piece of the cell or belongs to a
face. -/
theorem EvaluatesAt.cases (hx : call.EvaluatesAt cm dim x) :
    x = cm.center ∨ (∃ level, cm.CellNode level x) ∨ ∃ k, cm.FacePoint dim k x := by
  cases call with
  | value | functionAtCenter => exact .inl hx
  | cellAverage level | integrateCell level => exact .inr (.inl ⟨level, hx⟩)
  | faceAverage face level | integrateFace face level => exact .inr (.inr ⟨face, level, .inl hx⟩)
  | allAverages level =>
    rcases hx with hx | ⟨k, -, hx⟩
    · exact .inr (.inl ⟨level, hx⟩)
    · exact .inr (.inr ⟨k, level, .inl hx⟩)
  | integrateCellAndFaces tetraLevel triangleLevel cellEntries =>
    rcases hx with hx | ⟨k, -, hx⟩
    · exact .inr (.inl ⟨tetraLevel, hx⟩)
    · exact .inr (.inr ⟨k, triangleLevel, .inl hx⟩)
  | faceFlux face level | functionFlux face level | tensorFlux face level =>
    by_cases hlevel : level = .bary
    · subst hlevel
      exact .inl (CellCache.eq_center_of_fluxNode hx)
    · exact .inr (.inr ⟨face, level, .inr ⟨hlevel, .inl hx⟩⟩)
  | vertexFlux face level | functionVertexFlux face level =>
    by_cases hlevel : level = .bary
    · subst hlevel
      exact .inl hx
    · exact .inr (.inr ⟨face, level, .inr ⟨hlevel, .inr hx⟩⟩)

variable {cells : List (List Loop)} {vertices : List (Vec3 ℝ)} {m : PolyhedralMesh ℝ} {c : Nat}
  {x : Vec3 ℝ} (hm : PolyhedralMesh.build vertices cells = .ok m) (hc : c < m.cellCount)
  (hfan : ∀ f ∈ m.cellFaces.getD c [], 0 < Polygon.fanArea (m.polygon cells f))

include hm hc hfan

/-- **A routine that keeps to a face evaluates at combinations of the corners of the face.** -/
theorem exists_mem_faceHull (hface : call.face? = some k)
    (hx : call.EvaluatesAt (CellCache.ofTables m.toMeshTables c .all) dim x) :
    ∃ f, (m.cellFaces.getD c [])[k]? = some f ∧ x ∈ m.faceHull cells f := by
  have hpoint := facePoint_of_face hface hx
  obtain ⟨f, hf⟩ := hpoint.exists_face
  exact ⟨f, hf, hpoint.mem hm hc hf (hfan f (List.mem_of_getElem? hf))⟩

/-- **A routine on a cell evaluates at combinations of the vertices of the cell.** -/
theorem mem_cellHull (hvolume : 0 < m.cellVolumes.getD c 0)
    (hx : call.EvaluatesAt (CellCache.ofTables m.toMeshTables c .all) dim x) :
    x ∈ m.cellHull c := by
  rcases hx.cases with rfl | ⟨level, hx⟩ | ⟨k, hx⟩
  · exact PolyhedralMesh.cellCenter_mem hm hfan hvolume
  · exact CellCache.cellNode_mem hm hc hfan hvolume hx
  · obtain ⟨f, hf⟩ := hx.exists_face
    have hmem := List.mem_of_getElem? hf
    exact PolyhedralMesh.faceHull_subset hm hmem (hx.mem hm hc hf (hfan f hmem))

end FunctionCall

/-! ## Boundary faces -/

/-- **The nodes on a boundary face are combinations of its corners.** -/
theorem PolyhedralMesh.exists_mem_faceHull_of_boundaryNode {cells : List (List Loop)}
    {vertices : List (Vec3 ℝ)} {m : PolyhedralMesh ℝ} (hm : build vertices cells = .ok m)
    (hfan : ∀ c < m.cellCount, ∀ f ∈ m.cellFaces.getD c [],
      0 < Polygon.fanArea (m.polygon cells f))
    {level : Level} {bf : Nat} {x : Vec3 ℝ} (hx : m.BoundaryNode level bf x) :
    ∃ f, m.boundaryFaces[bf]? = some f ∧ x ∈ m.faceHull cells f := by
  obtain ⟨f, ss, hf, hss, hx⟩ := hx
  have hbf := fetch_eq_ok.1 hf
  obtain ⟨c, hc, hmem⟩ := exists_cell_of_mem_boundaryFaces hm (List.mem_of_getElem? hbf)
  rw [(consistent_of_build hm hc).facePieces hmem] at hss
  obtain rfl := Except.ok.inj hss
  exact ⟨f, hbf, hx.mem (convex_convexHull ℝ _) (SimplexRule.isInside_triangle level) fun s hs =>
    triangles_mem hm hmem (hfan c hc f hmem) hs⟩

/-! ## All points of evaluation -/

/-- **Functions are evaluated only inside a cell.**  The points of a routine on a cell are
combinations of the vertices of the cell, those of a routine that keeps to a face are combinations
of the corners of the face, and the result depends on the values at these points only.  The same
holds of averages over boundary faces. -/
theorem FunctionCall.evaluates_inside {cells : List (List Loop)} {vertices : List (Vec3 ℝ)}
    {m : PolyhedralMesh ℝ} (hm : PolyhedralMesh.build vertices cells = .ok m)
    (hfan : ∀ c < m.cellCount, ∀ f ∈ m.cellFaces.getD c [],
      0 < Polygon.fanArea (m.polygon cells f))
    (hvolume : ∀ c < m.cellCount, 0 < m.cellVolumes.getD c 0) :
    (∀ c < m.cellCount, ∃ cm, CellCache.build m.toMeshTables c .all = .ok cm ∧
      ∀ call : FunctionCall,
        (∀ dim x, call.EvaluatesAt cm dim x → x ∈ m.cellHull c) ∧
        (∀ k dim x, call.face? = some k → call.EvaluatesAt cm dim x →
          ∃ f, cm.faceIds[k]? = some f ∧ x ∈ m.faceHull cells f) ∧
        ∀ (support : Support) (f g : SpaceTimeFunction ℝ) (t : ℝ), f.dim = g.dim →
          (∀ x, call.EvaluatesAt cm f.dim x → f.components t x = g.components t x) →
          (call.call support f t).run cm = (call.call support g t).run cm) ∧
    (∀ level bf x, m.BoundaryNode level bf x →
      ∃ f, m.boundaryFaces[bf]? = some f ∧ x ∈ m.faceHull cells f) ∧
    ∀ ev : BulkEvaluator ℝ, ev.mesh = m.toMeshTables →
      ∀ (f g : SpaceTimeFunction ℝ) (t : ℝ) (level : Level), f.dim = g.dim →
        (∀ bf x, m.BoundaryNode level bf x → f.components t x = g.components t x) →
        ∀ sel, ev.boundaryAverageOfFunction f sel t level =
          ev.boundaryAverageOfFunction g sel t level := by
  refine ⟨fun c hc => ?_, fun level bf x hx =>
    PolyhedralMesh.exists_mem_faceHull_of_boundaryNode hm hfan hx, ?_⟩
  · have h := PolyhedralMesh.consistent_of_build hm hc
    refine ⟨_, CellCache.build_eq_ofTables h CapabilitySet.closed_all, fun call =>
      ⟨fun dim x hx => mem_cellHull hm hc (hfan c hc) (hvolume c hc) hx, ?_, ?_⟩⟩
    · intro k dim x hface hx
      rw [CellCache.faceIds_ofTables (CapabilitySet.contains_all _)]
      exact exists_mem_faceHull hm hc (hfan c hc) hface hx
    · intro support f g t hdim hagree
      exact run_congr (CellCache.cellPieces_ofTables h
        (fun j _ => CapabilitySet.contains_all j) (CapabilitySet.contains_all _)) support hdim call
        hagree
  · rintro ev hev f g t level hdim hagree sel
    exact BulkEvaluator.boundaryAverageOfFunction_congr hdim
      (fun bf x hx => hagree bf x (hev ▸ hx)) sel

theorem Tetrahedron.x_mem_Icc_of_mem_cellHull {x : Vec3 ℝ} (hx : x ∈ unitMesh.cellHull 0) :
    x.x ∈ Set.Icc 0 1 := by
  have hconvex : Convex ℝ {x : Vec3 ℝ | x.x ∈ Set.Icc (0 : ℝ) 1} :=
    (convex_Icc 0 1).is_linear_preimage (IsLinearMap.mk (fun _ _ => rfl) fun _ _ => rfl)
  refine convexHull_min (fun p hp => ?_) hconvex hx
  obtain ⟨v, hv, rfl⟩ := List.mem_map.1 hp
  have hlt : v < 4 := mem_cellVertices.1 hv
  have hcases : v = 0 ∨ v = 1 ∨ v = 2 ∨ v = 3 := by omega
  rcases hcases with rfl | rfl | rfl | rfl <;>
    simp [MeshTables.point, unitMesh, mesh, PolyhedralMesh.assemble]

/-- On the unit tetrahedron the first coordinate is not negative: it has the same average as its
absolute value. -/
theorem evaluates_inside_unitMesh :
    ∃ cm : CellCache ℝ, CellCache.build Tetrahedron.unitMesh.toMeshTables 0 .all = .ok cm ∧
      (CellCall.cellAverage ⟨.cell, .function ⟨1, fun _ x => #v[x.x]⟩⟩ 5 .highest).run cm =
        (CellCall.cellAverage ⟨.cell, .function ⟨1, fun _ x => #v[|x.x|]⟩⟩ 5 .highest).run cm := by
  have hm := Tetrahedron.build_unitMesh
  have hcell := Tetrahedron.regularCell_unitMesh
  have hzero : ∀ c < Tetrahedron.unitMesh.cellCount, c = 0 := by
    simp [MeshTables.cellCount, Tetrahedron.unitMesh, Tetrahedron.mesh, PolyhedralMesh.assemble,
      Tetrahedron.numbering]
  have hfan : ∀ c < Tetrahedron.unitMesh.cellCount, ∀ f ∈ Tetrahedron.unitMesh.cellFaces.getD c [],
      0 < Polygon.fanArea (Tetrahedron.unitMesh.polygon tetrahedronCells f) := by
    intro c hc f hf
    rw [hzero c hc] at hf
    exact Polygon.fanArea_pos (hcell.convex f hf).area_pos
  have hvolume : ∀ c < Tetrahedron.unitMesh.cellCount,
      0 < Tetrahedron.unitMesh.cellVolumes.getD c 0 := by
    intro c hc
    rw [hzero c hc]
    exact hcell.volume_pos hm
  obtain ⟨cm, hcm, hcalls⟩ := (FunctionCall.evaluates_inside hm hfan hvolume).1 0 hcell.lt
  obtain ⟨hinside, -, hagree⟩ := hcalls (.cellAverage .highest)
  refine ⟨cm, hcm, hagree .cell _ _ 5 rfl fun x hx => ?_⟩
  show (#v[x.x] : Vector ℝ 1).toList = (#v[|x.x|] : Vector ℝ 1).toList
  rw [abs_of_nonneg ((Tetrahedron.x_mem_Icc_of_mem_cellHull (hinside 1 x hx)).1)]

end Polyfield
