import Polyfield.Proofs.BuiltCache
import Polyfield.Proofs.ColumnGeometry
import Polyfield.Proofs.MeshConstruction
import Polyfield.Proofs.PieceMoments

/-!
# Fans around face centers

The center of a face is computed from the triangles around the mean of its corners, and used as the
apex of other triangles: those between the edges of the face and the center itself.  The center is
the barycenter of these triangles too, and of the midpoints of the edges with the same weights.

* `Polygon.vectorArea_eq_sum_cross_sub` : the vector area of a loop, seen from any origin;
* `Polygon.ContainsStrictly`, `ConvexFace.containsStrictly_center` : the center lies inside;
* `CenterFan`, `ConvexFace.centerFan` : the triangles around the center, for the sides of a polygon
  in any order and of any directions;
* `RegularFace.holdsFan_ofTables`, `PolyhedralMesh.storesFan` : the caches of the cells at a face
  hold these triangles, edge by edge;
* `PolyhedralMesh.loop_geometry` : the geometry of a loop, in a mesh and in its caches.
-/

namespace Polyfield

/-! ## Polygons -/

namespace Polygon

/-- **The vector area of a polygon** is half the sum of the vector products along its sides, seen
from any origin. -/
theorem vectorArea_eq_sum_cross_sub (ps : List (Vec3 ℝ)) (o : Vec3 ℝ) : vectorArea ps =
    (1 / 2 : ℝ) • ((cyclicPairs ps).map fun s => (s.1 - o).cross (s.2 - o)).sum := by
  rw [← sum_triangleVector ps o, smul_sum_map]
  simp only [triangleVector_eq]

/-- A point lies inside a polygon: in its plane, surrounded by its corners, and properly on the left
of all sides, seen against the normal.  Nothing lies on the left of a side without length. -/
structure ContainsStrictly (n : Vec3 ℝ) (ps : List (Vec3 ℝ)) (x : Vec3 ℝ) : Prop where
  coplanar : ∀ p ∈ ps, n.dot (x - p) = 0
  surrounds : Surrounds ps x
  left : ∀ s ∈ cyclicPairs ps, s.1 ≠ s.2 → 0 < n.dot ((s.2 - s.1).cross (x - s.1))

end Polygon

/-- The triangles between the sides of a polygon and the center of a face, with their areas: they
make up the area of the face, and their centroids and the midpoints of the sides, weighed by the
areas, have their mean in the center. -/
structure CenterFan (ps : List (Vec3 ℝ)) (face : EntityGeometry ℝ)
    (sides : List (Vec3 ℝ × Vec3 ℝ)) (areas : List ℝ) : Prop where
  hasSides : Polygon.HasSides ps sides
  areas_eq : areas = sides.map fun s => triangleArea s.1 s.2 face.center
  sum_areas : areas.sum = face.measure
  sum_centroids : ((sides.zip areas).map fun t =>
    t.2 • ((1 / 3 : ℝ) • (t.1.1 + t.1.2 + face.center))).sum = face.measure • face.center
  sum_midpoints : ((sides.zip areas).map fun t =>
    t.2 • Vec3.midpoint t.1.1 t.1.2).sum = face.measure • face.center

namespace ConvexFace

variable {ps : List (Vec3 ℝ)} (h : ConvexFace ps)

include h

/-- **The center lies inside the polygon.** -/
theorem containsStrictly_center : Polygon.ContainsStrictly (Polygon.geometry ps).unit ps
    (Polygon.geometry ps).center where
  coplanar := h.contains_center.coplanar
  surrounds := h.surrounds_center
  left s hs hne := by
    rw [h.convexPolygon.dot_cross_eq h.contains_center hs]
    exact mul_pos two_pos (h.triangleArea_center_pos hs hne)

theorem sum_centroids : ((cyclicPairs ps).map fun s =>
    triangleArea s.1 s.2 (Polygon.geometry ps).center •
      ((1 / 3 : ℝ) • (s.1 + s.2 + (Polygon.geometry ps).center))).sum =
    (Polygon.geometry ps).measure • (Polygon.geometry ps).center :=
  h.sum_triangleArea_smul h.surrounds_center.inHull

/-- **The midpoints of the sides, weighed by the triangles around the center, have their mean in
the center.**  The centroid of such a triangle divides the way from the midpoint to the center. -/
theorem sum_midpoints : ((cyclicPairs ps).map fun s =>
    triangleArea s.1 s.2 (Polygon.geometry ps).center • Vec3.midpoint s.1 s.2).sum =
    (Polygon.geometry ps).measure • (Polygon.geometry ps).center := by
  set area := fun s : Vec3 ℝ × Vec3 ℝ => triangleArea s.1 s.2 (Polygon.geometry ps).center
  set moment := (Polygon.geometry ps).measure • (Polygon.geometry ps).center
  set midpoints := ((cyclicPairs ps).map fun s => area s • Vec3.midpoint s.1 s.2).sum
  have hsplit : ∀ s : Vec3 ℝ × Vec3 ℝ,
      area s • ((1 / 3 : ℝ) • (s.1 + s.2 + (Polygon.geometry ps).center)) =
        (2 / 3 : ℝ) • area s • Vec3.midpoint s.1 s.2 +
          (1 / 3 : ℝ) • area s • (Polygon.geometry ps).center := by
    intro s
    rw [Vec3.midpoint_eq]
    module
  have hapex : ((cyclicPairs ps).map fun s => area s • (Polygon.geometry ps).center).sum =
      moment := by
    rw [sum_map_smul, h.sum_triangleArea]
  have hcentroids : moment = (2 / 3 : ℝ) • midpoints + (1 / 3 : ℝ) • moment := by
    rw [← hapex, smul_sum_map, smul_sum_map, ← List.sum_map_add, hapex]
    exact h.sum_centroids.symm.trans (congrArg List.sum (List.map_congr_left fun s _ => hsplit s))
  calc
    midpoints = (3 / 2 : ℝ) • ((2 / 3 : ℝ) • midpoints + (1 / 3 : ℝ) • moment) -
        (1 / 2 : ℝ) • moment := by module
    _ = (3 / 2 : ℝ) • moment - (1 / 2 : ℝ) • moment := by rw [← hcentroids]
    _ = moment := by module

/-- **The triangles around the center.** -/
theorem centerFan {sides : List (Vec3 ℝ × Vec3 ℝ)} (hsides : Polygon.HasSides ps sides) :
    CenterFan ps (Polygon.geometry ps) sides
      (sides.map fun s => triangleArea s.1 s.2 (Polygon.geometry ps).center) where
  hasSides := hsides
  areas_eq := rfl
  sum_areas := by
    rw [hsides.sum_eq fun a b => triangleArea_swap a b _, h.sum_triangleArea]
  sum_centroids := by
    have hsum := hsides.sum_eq (G := fun a b => triangleArea a b (Polygon.geometry ps).center •
      ((1 / 3 : ℝ) • (a + b + (Polygon.geometry ps).center))) fun a b => by
        rw [triangleArea_swap, add_comm a b]
    rw [← h.sum_centroids, ← hsum, ← List.map_prod_left_eq_zip, List.map_map]
    rfl
  sum_midpoints := by
    have hsum := hsides.sum_eq (G := fun a b => triangleArea a b (Polygon.geometry ps).center •
      Vec3.midpoint a b) fun a b => by rw [triangleArea_swap, Vec3.midpoint_comm]
    rw [← h.sum_midpoints, ← hsum, ← List.map_prod_left_eq_zip, List.map_map]
    rfl

end ConvexFace

/-! ## Faces of a mesh -/

/-- What a cache holds of the local face `k` with the given corners and geometry: the ends of its
edges and the areas of their triangles. -/
def CellCache.HoldsFan (cm : CellCache ℝ) (k : Nat) (ps : List (Vec3 ℝ))
    (face : EntityGeometry ℝ) : Prop :=
  ∃ (edges : List Nat) (sides : List (Vec3 ℝ × Vec3 ℝ)) (areas : List ℝ),
    fetch cm.faces k = .ok face ∧ cm.faceEdges k = .ok edges ∧
      edges.mapM cm.edgePoints = .ok sides ∧ cm.faceTriangleAreas k = .ok areas ∧
        CenterFan ps face sides areas

namespace RegularFace

variable {cells : List (List Loop)} {vertices : List (Vec3 ℝ)} {m : PolyhedralMesh ℝ} {c f : Nat}
  (hm : PolyhedralMesh.build vertices cells = .ok m)

include hm

/-- A cache with triangles holds those around the center of each of its faces. -/
theorem holdsFan_ofTables (hface : RegularFace cells m f) (hc : c < m.cellCount)
    {ks : CapabilitySet} (hks : ks.Closed) (hneeds : ks.contains .faceTriangles = true) {k : Nat}
    (hk : (m.cellFaces.getD c [])[k]? = some f) :
    (CellCache.ofTables m.toMeshTables c ks).HoldsFan k (m.polygon cells f)
      (Polygon.geometry (m.polygon cells f)) := by
  have hf := List.mem_of_getElem? hk
  have hall : ∀ j ∈ Capability.faceTriangles.closure, ks.contains j = true := hks _ hneeds
  have hcons := PolyhedralMesh.consistent_of_build hm hc
  have hfan := hface.convex.centerFan (hasSides hm hf hface)
  rw [List.map_map] at hfan
  rw [← PolyhedralMesh.face_of_build hm hf] at hfan ⊢
  refine ⟨_, _, _, CellCache.fetch_faces_ofTables (hall _ (by decide)) hk,
    CellCache.faceEdges_ofTables (hall _ (by decide)) hk, ?_,
    CellCache.faceTriangleAreas_ofTables (hall _ (by decide)) hneeds hk, hfan⟩
  rw [List.mapM_map]
  exact mapM_eq_map fun e he => CellCache.edgePoints_ofTables hcons (hall _ (by decide))
    (hall _ (by decide)) (hcons.faceEdges_mem f hf e he)

end RegularFace

namespace PolyhedralMesh

/-- A mesh stores the geometry of a face, and the caches of its cells that have triangles hold those
around the center of the face. -/
structure StoresFan (m : PolyhedralMesh ℝ) (f : Nat) (ps : List (Vec3 ℝ))
    (face : EntityGeometry ℝ) : Prop where
  center : fetch m.faceCenters f = .ok face.center
  unit : fetch m.faceNormals f = .ok face.unit
  area : fetch m.faceAreas f = .ok face.measure
  caches : ∀ (c : Nat) (ks : List Capability), c < m.cellCount →
    (CapabilitySet.ofList ks).contains .faceTriangles = true →
      ∃ cm, CellCache.build m.toMeshTables c (.ofList ks) = .ok cm ∧
        fetch m.cellFaces c = .ok cm.faceIds ∧
        ∀ k : Nat, cm.faceIds[k]? = some f → cm.HoldsFan k ps face

section Stored

variable {cells : List (List Loop)} {vertices : List (Vec3 ℝ)} {m : PolyhedralMesh ℝ} {f : Nat}
  {l : Loop} (hm : build vertices cells = .ok m)
  (hf : (Numbering.ofCells cells).loops[f]? = some l)

include hm hf

theorem polygon_of_loop : m.polygon cells f = corners vertices l := by
  obtain ⟨-, -, rfl⟩ := build_eq_ok.1 hm
  rw [polygon, Numbering.loop, List.getD, hf, Option.getD_some]
  rfl

/-- The stored geometry of a face is that of its first loop. -/
theorem fetch_geometry_of_loop :
    fetch m.faceCenters f = .ok (Polygon.geometry (corners vertices l)).center ∧
      fetch m.faceNormals f = .ok (Polygon.geometry (corners vertices l)).unit ∧
      fetch m.faceAreas f = .ok (Polygon.geometry (corners vertices l)).measure := by
  obtain ⟨-, -, rfl⟩ := build_eq_ok.1 hm
  have hread : ∀ {α : Type} (read : EntityGeometry ℝ → α),
      fetch ((faceGeometries vertices (.ofCells cells)).map read) f =
        .ok (read (Polygon.geometry (corners vertices l))) := by
    intro α read
    rw [fetch_eq_ok, faceGeometries, List.getElem?_map, List.getElem?_map, hf]
    rfl
  exact ⟨hread _, hread _, hread _⟩

/-- **A mesh stores the fans of its faces.** -/
theorem storesFan (hnd : l.Nodup) (hconvex : ConvexFace (corners vertices l)) :
    m.StoresFan f (corners vertices l) (Polygon.geometry (corners vertices l)) := by
  obtain ⟨hcenter, hunit, harea⟩ := fetch_geometry_of_loop hm hf
  have hpolygon := polygon_of_loop hm hf
  have hface : RegularFace cells m f := by
    refine ⟨?_, hpolygon.symm ▸ hconvex⟩
    rwa [Numbering.loop, List.getD, hf, Option.getD_some]
  refine ⟨hcenter, hunit, harea, fun c ks hc hneeds => ?_⟩
  have hks := CapabilitySet.closed_ofList ks
  have hcons := consistent_of_build hm hc
  have hids := CellCache.faceIds_ofTables (m := m.toMeshTables) (c := c)
    (hks _ hneeds .faceIds (by decide))
  refine ⟨_, CellCache.build_eq_ofTables hcons hks, ?_, fun k hk => ?_⟩
  · rw [hids]
    exact fetch_getD hcons.faces_lt []
  · rw [hids] at hk
    rw [← hpolygon]
    exact hface.holdsFan_ofTables hm hc hks hneeds hk

end Stored

/-- **The geometry of a loop.**  A loop of vertices of the mesh has its corners, and its vector area
is half the sum of the vector products along its sides, seen from any origin.  If the loop is a
planar convex polygon of distinct vertices and positive area, its center lies inside, and the
triangles between its sides and the center make up its area, with the center as the mean of their
centroids and as the mean of the midpoints of the sides.  A mesh in which it is the first loop of a
face stores this geometry, and the caches of its cells hold these triangles. -/
theorem loop_geometry {vertices : List (Vec3 ℝ)} {l : Loop}
    (hl : ∀ v ∈ l, v < vertices.length) :
    l.mapM (fetch vertices) = .ok (corners vertices l) ∧
    (∀ o : Vec3 ℝ, Polygon.vectorArea (corners vertices l) = (1 / 2 : ℝ) •
      ((cyclicPairs l).map fun s =>
        (vertices.getD s.1 0 - o).cross (vertices.getD s.2 0 - o)).sum) ∧
    (l.Nodup → ConvexFace (corners vertices l) →
      Polygon.ContainsStrictly (Polygon.geometry (corners vertices l)).unit (corners vertices l)
        (Polygon.geometry (corners vertices l)).center ∧
      (∃ areas, CenterFan (corners vertices l) (Polygon.geometry (corners vertices l))
        (cyclicPairs (corners vertices l)) areas) ∧
      ∀ (cells : List (List Loop)) (m : PolyhedralMesh ℝ) (f : Nat),
        build vertices cells = .ok m → (Numbering.ofCells cells).loops[f]? = some l →
          m.StoresFan f (corners vertices l) (Polygon.geometry (corners vertices l))) := by
  refine ⟨mapM_fetch_corners hl, fun o => ?_, fun hnd hconvex => ⟨hconvex.containsStrictly_center,
    ⟨_, hconvex.centerFan (.refl _)⟩, fun cells m f hm hf => storesFan hm hf hnd hconvex⟩⟩
  rw [Polygon.vectorArea_eq_sum_cross_sub _ o, corners, cyclicPairs_map, List.map_map]
  rfl

/-- The bottom of the unit cube: its four triangles make up a unit square. -/
theorem loop_geometry_cube : ∃ (m : PolyhedralMesh ℝ) (cm : CellCache ℝ) (k : Nat) (areas : List ℝ),
    cube = .ok m ∧ CellCache.build m.toMeshTables 0 .all = .ok cm ∧ cm.faceIds[k]? = some 0 ∧
    fetch m.faceCenters 0 = .ok ⟨1 / 2, 1 / 2, 0⟩ ∧ fetch m.faceAreas 0 = .ok 1 ∧
    cm.faceTriangleAreas k = .ok areas ∧ areas.length = 4 ∧ areas.sum = 1 := by
  have hcorners : corners (columnVertices 1) (Column.bottomLoop 0) =
      (Column.bottomSquare 0).corners := Column.corners_bottomLoop (Nat.zero_le 1)
  have hvertices : ∀ v ∈ Column.bottomLoop 0, v < (columnVertices 1 : List (Vec3 ℝ)).length := by
    rw [Column.length_columnVertices]
    decide
  have hconvex : ConvexFace (corners (columnVertices 1) (Column.bottomLoop 0)) := by
    rw [hcorners]
    exact Parallelogram.convexFace_corners _ (Column.norm_vectorArea_bottomSquare 0 ▸ one_ne_zero)
  have hloop : (Numbering.ofCells (columnCells 1)).loops[0]? = some (Column.bottomLoop 0) := by
    rw [Column.ofCells_columnCells le_rfl]
    rfl
  have hgeometry := Column.geometry_square (k := 0) (q := Column.bottomSquare 0) List.mem_cons_self
  obtain ⟨-, -, hpolygon⟩ := loop_geometry hvertices
  have hstored := (hpolygon (by decide) hconvex).2.2 _ _ 0 (Column.build_eq_ok 1) hloop
  rw [hcorners, hgeometry, Column.center_bottomSquare, Nat.cast_zero] at hstored
  obtain ⟨cm, hcm, -, hfan⟩ := hstored.caches 0 Capability.all
    (by rw [Column.cellCount_eq]; exact Nat.one_pos) (CapabilitySet.contains_all _)
  have hbuild := CellCache.build_eq_ofTables (Column.consistent (R := ℝ) Nat.one_pos)
    CapabilitySet.closed_all
  obtain rfl := Except.ok.inj (hbuild.symm.trans hcm)
  have hk : (CellCache.ofTables (Column.mesh ℝ 1).toMeshTables 0 .all).faceIds[0]? = some 0 := by
    rw [CellCache.faceIds_ofTables (CapabilitySet.contains_all _), Column.cellFaces_eq Nat.one_pos]
    rfl
  obtain ⟨-, sides, areas, -, -, -, hareas, htriangles⟩ := hfan 0 hk
  refine ⟨_, _, 0, areas, Column.build_eq_ok 1, hcm, hk, hstored.center, hstored.area, hareas, ?_,
    htriangles.sum_areas⟩
  have hlength := htriangles.hasSides.length_eq
  rw [List.length_map, List.length_map, length_cyclicPairs] at hlength
  rw [htriangles.areas_eq, List.length_map, hlength]
  rfl

end PolyhedralMesh

end Polyfield
