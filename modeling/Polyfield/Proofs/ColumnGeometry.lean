import Mathlib.Tactic.Ring
import Polyfield.Proofs.ColumnMesh
import Polyfield.Proofs.DualVolumes
import Polyfield.Proofs.LoopDirections

/-!
# Unit cubes

The geometry of a column over the real numbers.  The faces of its cubes are squares, and a polygon
with the corners of a parallelogram has the center and the area of the parallelogram.  The cones of
a cube all have the same volume, and so have the halves of all tetrahedra that its dual volumes are
made of.

* `Parallelogram.geometry_corners`, `Parallelogram.convexFace_corners`,
  `Parallelogram.halfVolume_eq` : one face;
* `Column.corners_loops` : the faces of a cube are its `Column.squares`;
* `Column.cellVolume_cubeFaces`, `Column.cellCenter_cubeFaces`, `Column.cellDualVolumes_eq` : the
  quantities of a cube;
* `PolyhedralMesh.column_stacks_unitCubes` : the mesh of a column.
-/

namespace Polyfield

/-! ## Parallelograms -/

/-- A parallelogram, given by a corner and the vectors along the sides at it. -/
structure Parallelogram where
  corner : Vec3 ℝ
  fst : Vec3 ℝ
  snd : Vec3 ℝ

namespace Parallelogram

variable (q : Parallelogram)

/-- The corners, along the first side first. -/
noncomputable def corners : List (Vec3 ℝ) :=
  [q.corner, q.corner + q.fst, q.corner + q.fst + q.snd, q.corner + q.snd]

noncomputable def center : Vec3 ℝ := q.corner + (1 / 2 : ℝ) • (q.fst + q.snd)

noncomputable def vectorArea : Vec3 ℝ := q.fst.cross q.snd

theorem apex_corners : Polygon.apex q.corners = q.center := by
  rw [Polygon.apex_eq_weightedMean]
  refine weightedMean_eq_of_sum_eq (List.cons_ne_nil _ _) one_ne_zero (fun _ _ => rfl) ?_
  simp only [corners, center, List.map_cons, List.map_nil, List.sum_cons, List.sum_nil, id_eq,
    List.length_cons, List.length_nil]
  push_cast
  module

/-- The triangles over the sides are quarters. -/
theorem triangleVector_center {s : Vec3 ℝ × Vec3 ℝ} (hs : s ∈ cyclicPairs q.corners) :
    triangleVector q.center s.1 s.2 = (1 / 4 : ℝ) • q.vectorArea := by
  simp only [corners, cyclicPairs, List.cons_append, List.nil_append, List.zip_cons_cons,
    List.zip_nil_right, List.mem_cons, List.not_mem_nil, or_false] at hs
  rcases hs with rfl | rfl | rfl | rfl <;>
    · ext <;> simp only [triangleVector_eq, center, vectorArea, Vec3.cross, Vec3.add_x, Vec3.add_y,
        Vec3.add_z, Vec3.sub_x, Vec3.sub_y, Vec3.sub_z, Vec3.smul_x, Vec3.smul_y, Vec3.smul_z] <;>
        ring

theorem vectorArea_corners : Polygon.vectorArea q.corners = q.vectorArea := by
  rw [Polygon.vectorArea, apex_corners, total_eq_sum]
  refine (congrArg List.sum (List.map_congr_left fun s hs => q.triangleVector_center hs)).trans ?_
  rw [List.map_const', length_cyclicPairs, List.sum_replicate]
  simp only [corners, List.length_cons, List.length_nil]
  module

theorem barycenter_corners (h : q.vectorArea.norm ≠ 0) :
    Polygon.barycenter q.corners = q.center := by
  rw [Polygon.barycenter_eq_weightedMean, apex_corners]
  refine weightedMean_eq_of_sum_eq (c := 1 / 4 * q.vectorArea.norm)
    (by simp [corners, cyclicPairs]) (mul_ne_zero (by norm_num) h) (fun s hs => ?_) ?_
  · rw [q.triangleVector_center hs, Vec3.norm_smul, abs_of_pos (by norm_num)]
  · simp only [corners, center, cyclicPairs, List.cons_append, List.nil_append, List.zip_cons_cons,
      List.zip_nil_right, List.map_cons, List.map_nil, List.sum_cons, List.sum_nil,
      List.length_cons, List.length_nil]
    push_cast
    module

/-- **The geometry of a parallelogram.** -/
theorem geometry_corners (h : q.vectorArea.norm ≠ 0) : Polygon.geometry q.corners =
    ⟨q.center, q.vectorArea / q.vectorArea.norm, q.vectorArea.norm⟩ := by
  simp only [Polygon.geometry, barycenter_corners q h, vectorArea_corners]

/-- The point with the given coordinates along the sides. -/
noncomputable def pointAt (α β : ℝ) : Vec3 ℝ := q.corner + α • q.fst + β • q.snd

theorem exists_pointAt_of_mem {x : Vec3 ℝ} (hx : x ∈ q.corners) :
    ∃ α β, 0 ≤ α ∧ α ≤ 1 ∧ 0 ≤ β ∧ β ≤ 1 ∧ x = q.pointAt α β := by
  simp only [corners, List.mem_cons, List.not_mem_nil, or_false] at hx
  rcases hx with rfl | rfl | rfl | rfl
  · exact ⟨0, 0, le_rfl, zero_le_one, le_rfl, zero_le_one, by simp [pointAt]⟩
  · exact ⟨1, 0, zero_le_one, le_rfl, le_rfl, zero_le_one, by simp [pointAt]⟩
  · exact ⟨1, 1, zero_le_one, le_rfl, zero_le_one, le_rfl, by simp [pointAt]⟩
  · exact ⟨0, 1, le_rfl, zero_le_one, zero_le_one, le_rfl, by simp [pointAt]⟩

/-- The points of a parallelogram lie on the left of its sides, by the coordinate across. -/
theorem cross_sides (α β : ℝ) : (cyclicPairs q.corners).map
    (fun s => (s.2 - s.1).cross (q.pointAt α β - s.1)) =
      [β • q.vectorArea, (1 - α) • q.vectorArea, (1 - β) • q.vectorArea, α • q.vectorArea] := by
  simp only [corners, cyclicPairs, List.cons_append, List.nil_append, List.zip_cons_cons,
    List.zip_nil_right, List.map_cons, List.map_nil, List.cons.injEq, and_true]
  refine ⟨?_, ?_, ?_, ?_⟩ <;> ext <;> simp only [pointAt, vectorArea, Vec3.cross, Vec3.add_x,
    Vec3.add_y, Vec3.add_z, Vec3.sub_x, Vec3.sub_y, Vec3.sub_z, Vec3.smul_x, Vec3.smul_y,
    Vec3.smul_z] <;> ring

/-- **A parallelogram that is not flat is a convex face.** -/
theorem convexFace_corners (h : q.vectorArea.norm ≠ 0) : ConvexFace q.corners := by
  refine convexFace_of_vectorArea ?_ ?_ ?_ <;> rw [vectorArea_corners]
  · exact mt Vec3.norm_eq_zero.2 h
  · intro x hx y hy
    obtain ⟨α, β, -, -, -, -, rfl⟩ := q.exists_pointAt_of_mem hx
    obtain ⟨α', β', -, -, -, -, rfl⟩ := q.exists_pointAt_of_mem hy
    simp only [pointAt, vectorArea, Vec3.cross, Vec3.dot, Vec3.add_x, Vec3.add_y, Vec3.add_z,
      Vec3.sub_x, Vec3.sub_y, Vec3.sub_z, Vec3.smul_x, Vec3.smul_y, Vec3.smul_z]
    ring
  · intro s hs x hx
    obtain ⟨α, β, hα, hα', hβ, hβ', rfl⟩ := q.exists_pointAt_of_mem hx
    have hside := List.mem_map_of_mem (f := fun s => (s.2 - s.1).cross (q.pointAt α β - s.1)) hs
    simp only [cross_sides, List.mem_cons, List.not_mem_nil, or_false] at hside
    have hself := Vec3.dot_self_nonneg q.vectorArea
    rcases hside with hside | hside | hside | hside <;> rw [hside, Vec3.dot_smul]
    · exact mul_nonneg hβ hself
    · exact mul_nonneg (sub_nonneg.2 hα') hself
    · exact mul_nonneg (sub_nonneg.2 hβ') hself
    · exact mul_nonneg hα hself

/-- All points of the plane of a parallelogram have the same height. -/
theorem vectorArea_dot_sub {s : Vec3 ℝ × Vec3 ℝ} (hs : s ∈ cyclicPairs q.corners) (y : Vec3 ℝ) :
    q.vectorArea.dot (y - s.1) = -q.vectorArea.dot (q.center - y) := by
  have hmem := fst_mem_of_mem_cyclicPairs hs
  simp only [corners, List.mem_cons, List.not_mem_nil, or_false] at hmem
  rcases hmem with hs | hs | hs | hs <;>
    · simp only [hs, vectorArea, center, Vec3.cross, Vec3.dot, Vec3.add_x, Vec3.add_y, Vec3.add_z,
        Vec3.sub_x, Vec3.sub_y, Vec3.sub_z, Vec3.smul_x, Vec3.smul_y, Vec3.smul_z]
      ring

/-- **The halves of the tetrahedra over a parallelogram** have the same volume. -/
theorem halfVolume_eq {s : Vec3 ℝ × Vec3 ℝ} (hs : s ∈ cyclicPairs q.corners) (y : Vec3 ℝ) :
    Dual.halfVolume s.1 s.2 q.center y = |q.vectorArea.dot (q.center - y)| / 24 := by
  rw [Dual.halfVolume_eq, ← triangleVector_rotate s.1 s.2, q.triangleVector_center hs, Vec3.smul_dot,
    q.vectorArea_dot_sub hs, abs_mul, abs_neg, abs_of_pos (by norm_num)]
  ring

end Parallelogram

/-! ## The faces of a unit cube -/

namespace Column

open PolyhedralMesh

/-- The bottom of cube `k`, as its loop walks. -/
noncomputable def bottomSquare : Nat → Parallelogram
  | 0 => ⟨0, ⟨0, 1, 0⟩, ⟨1, 0, 0⟩⟩
  | k + 1 => ⟨⟨0, 0, (k + 1 : Nat)⟩, ⟨1, 0, 0⟩, ⟨0, 1, 0⟩⟩

/-- The faces of cube `k`. -/
noncomputable def squares (k : Nat) : List Parallelogram :=
  [bottomSquare k, bottomSquare (k + 1), ⟨⟨0, 0, k⟩, ⟨1, 0, 0⟩, ⟨0, 0, 1⟩⟩,
    ⟨⟨1, 0, k⟩, ⟨0, 1, 0⟩, ⟨0, 0, 1⟩⟩, ⟨⟨1, 1, k⟩, ⟨-1, 0, 0⟩, ⟨0, 0, 1⟩⟩,
    ⟨⟨0, 1, k⟩, ⟨0, -1, 0⟩, ⟨0, 0, 1⟩⟩]

/-- The center of cube `k`. -/
noncomputable def cubeCenter (k : Nat) : Vec3 ℝ := ⟨1 / 2, 1 / 2, k + 1 / 2⟩

/-- The vertices of a column lie at the corners of unit squares. -/
theorem getD_columnVertices {n j i : Nat} (hj : j ≤ n) (hi : i < 4) :
    (columnVertices n : List (Vec3 ℝ)).getD (4 * j + i) 0 = (squareAt (j : ℝ)).getD i 0 := by
  have hfour : ∀ ps ∈ (List.range (n + 1)).map fun j : Nat => squareAt (j : ℝ), ps.length = 4 := by
    intro ps hps
    obtain ⟨j, -, rfl⟩ := List.mem_map.1 hps
    rfl
  rw [columnVertices, List.flatMap_def, List.getD, getElem?_flatten_slot hfour j hi,
    List.getElem?_map, List.getElem?_range (by omega)]
  rfl

theorem corners_bottomLoop {n k : Nat} (hk : k ≤ n) :
    corners (columnVertices n) (bottomLoop k) = (bottomSquare k).corners := by
  have hpoint := fun i hi => getD_columnVertices (i := i) hk hi
  cases k with
  | zero =>
    show [(columnVertices n).getD (4 * 0 + 0) 0, (columnVertices n).getD (4 * 0 + 3) 0,
      (columnVertices n).getD (4 * 0 + 2) 0, (columnVertices n).getD (4 * 0 + 1) 0] = _
    rw [hpoint 0 (by decide), hpoint 3 (by decide), hpoint 2 (by decide), hpoint 1 (by decide)]
    simp [squareAt, bottomSquare, Parallelogram.corners, Vec3.ext_iff]
  | succ k =>
    show [(columnVertices n).getD (4 * (k + 1) + 0) 0, (columnVertices n).getD (4 * (k + 1) + 1) 0,
      (columnVertices n).getD (4 * (k + 1) + 2) 0, (columnVertices n).getD (4 * (k + 1) + 3) 0] = _
    rw [hpoint 0 (by decide), hpoint 1 (by decide), hpoint 2 (by decide), hpoint 3 (by decide)]
    simp [squareAt, bottomSquare, Parallelogram.corners, Vec3.ext_iff]

/-- **The faces of a cube are squares.** -/
theorem corners_loops {n k : Nat} (hk : k < n) :
    (bottomLoop k :: addedLoops (4 * k)).map (corners (columnVertices n)) =
      (squares k).map Parallelogram.corners := by
  have hlow := fun i hi => getD_columnVertices (i := i) hk.le hi
  have hhigh := fun i hi => getD_columnVertices (i := i) (show k + 1 ≤ n from hk) hi
  have hside : ∀ i < 4, ∀ j < 4, corners (columnVertices n)
      [4 * k + i, 4 * k + j, 4 * (k + 1) + j, 4 * (k + 1) + i] =
        [(squareAt (k : ℝ)).getD i 0, (squareAt (k : ℝ)).getD j 0,
          (squareAt ((k + 1 : Nat) : ℝ)).getD j 0, (squareAt ((k + 1 : Nat) : ℝ)).getD i 0] := by
    intro i hi j hj
    simp only [corners, List.map_cons, List.map_nil, hlow i hi, hlow j hj, hhigh i hi, hhigh j hj]
  have hsplit : bottomLoop k :: addedLoops (4 * k) = [bottomLoop k, bottomLoop (k + 1),
      [4 * k + 0, 4 * k + 1, 4 * (k + 1) + 1, 4 * (k + 1) + 0],
      [4 * k + 1, 4 * k + 2, 4 * (k + 1) + 2, 4 * (k + 1) + 1],
      [4 * k + 2, 4 * k + 3, 4 * (k + 1) + 3, 4 * (k + 1) + 2],
      [4 * k + 3, 4 * k + 0, 4 * (k + 1) + 0, 4 * (k + 1) + 3]] := rfl
  rw [hsplit, squares]
  simp only [List.map_cons, List.map_nil, corners_bottomLoop hk.le,
    corners_bottomLoop (show k + 1 ≤ n from hk)]
  rw [hside 0 (by decide) 1 (by decide), hside 1 (by decide) 2 (by decide),
    hside 2 (by decide) 3 (by decide), hside 3 (by decide) 0 (by decide)]
  simp [squareAt, Parallelogram.corners, Vec3.ext_iff]

theorem center_bottomSquare (k : Nat) : (bottomSquare k).center = ⟨1 / 2, 1 / 2, k⟩ := by
  cases k <;> simp [bottomSquare, Parallelogram.center, Vec3.ext_iff]

/-- The lowest face of a column looks down, and the squares between and above the cubes look up. -/
theorem vectorArea_bottomSquare (k : Nat) :
    (bottomSquare k).vectorArea = ⟨0, 0, if k = 0 then -1 else 1⟩ := by
  cases k <;> simp [bottomSquare, Parallelogram.vectorArea, Vec3.cross]

theorem norm_vectorArea_bottomSquare (k : Nat) : (bottomSquare k).vectorArea.norm = 1 := by
  rw [vectorArea_bottomSquare]
  split <;> simp [Vec3.norm, Vec3.dot]

/-- The faces of a cube are of unit area and half a unit away from its center. -/
theorem unit_square {k : Nat} {q : Parallelogram} (hq : q ∈ squares k) :
    q.vectorArea.norm = 1 ∧ |q.vectorArea.dot (q.center - cubeCenter k)| = 1 / 2 := by
  simp only [squares, List.mem_cons, List.not_mem_nil, or_false] at hq
  rcases hq with rfl | rfl | rfl | rfl | rfl | rfl
  · refine ⟨norm_vectorArea_bottomSquare k, ?_⟩
    rw [vectorArea_bottomSquare, center_bottomSquare]
    split <;> simp [cubeCenter, Vec3.dot]
  · refine ⟨norm_vectorArea_bottomSquare (k + 1), ?_⟩
    rw [vectorArea_bottomSquare, center_bottomSquare, if_neg k.succ_ne_zero]
    simp only [cubeCenter, Vec3.dot, Vec3.sub_x, Vec3.sub_y, Vec3.sub_z]
    norm_num
  all_goals
    constructor
    · simp [Parallelogram.vectorArea, Vec3.norm, Vec3.cross, Vec3.dot]
    · simp only [Parallelogram.vectorArea, Parallelogram.center, cubeCenter, Vec3.cross, Vec3.dot]
      norm_num

theorem geometry_square {k : Nat} {q : Parallelogram} (hq : q ∈ squares k) :
    Polygon.geometry q.corners = ⟨q.center, q.vectorArea, 1⟩ := by
  have hnorm := (unit_square hq).1
  rw [q.geometry_corners (by rw [hnorm]; exact one_ne_zero), hnorm, Vec3.div_eq_smul, inv_one,
    one_smul]

/-! ## The cells of a column -/

/-- The faces of a cube with their geometry. -/
noncomputable def cubeFaces (k : Nat) : List (EntityGeometry ℝ) :=
  (squares k).map fun q => ⟨q.center, q.vectorArea, 1⟩

theorem apex_cubeFaces (k : Nat) : Cone.apex (cubeFaces k) = cubeCenter k := by
  rw [Cone.apex_eq_weightedMean]
  refine weightedMean_eq_of_sum_eq (List.cons_ne_nil _ _) one_ne_zero (fun _ _ => rfl) ?_
  simp only [cubeFaces, squares, List.map_cons, List.map_nil, List.sum_cons, List.sum_nil,
    center_bottomSquare, List.length_cons, List.length_nil]
  ext <;> simp [Parallelogram.center, cubeCenter] <;> ring

/-- The cones of a cube are sixths. -/
theorem volume_cubeFaces {k : Nat} {face : EntityGeometry ℝ} (hface : face ∈ cubeFaces k) :
    Cone.volume (Cone.apex (cubeFaces k)) face = 1 / 6 := by
  obtain ⟨q, hq, rfl⟩ := List.mem_map.1 hface
  rw [apex_cubeFaces, Cone.volume, Cone.height, Scalar.abs_real, (unit_square hq).2]
  norm_num

theorem cellVolume_cubeFaces (k : Nat) : Cone.cellVolume (cubeFaces k) = 1 := by
  rw [Cone.cellVolume_of_volume_eq fun _ => volume_cubeFaces]
  simp [cubeFaces, squares]

theorem cellCenter_cubeFaces (k : Nat) : Cone.cellCenter (cubeFaces k) = cubeCenter k := by
  have hne : cubeFaces k ≠ [] := List.cons_ne_nil _ _
  rw [Cone.cellCenter_of_volume_eq hne (fun _ => volume_cubeFaces) (by norm_num), apex_cubeFaces]

section Cube

variable {n k : Nat} (hk : k < n)
include hk

/-- A face of a cube is one of its squares. -/
theorem corners_loop {f : Nat} (hf : f ∈ faces k) : ∃ q ∈ squares k,
    corners (columnVertices n) ((Numbering.ofCells (columnCells n)).loop f) = q.corners := by
  have hn : 1 ≤ n := by omega
  have hmem : corners (columnVertices n) ((numbering n).loop f) ∈
      (squares k).map Parallelogram.corners := by
    rw [← corners_loops hk, ← map_loop_faces hk]
    exact List.mem_map_of_mem (List.mem_map_of_mem hf)
  obtain ⟨q, hq, hcorners⟩ := List.mem_map.1 hmem
  rw [ofCells_columnCells hn]
  exact ⟨q, hq, hcorners.symm⟩

theorem facesOf_faces : facesOf (faceGeometries (columnVertices n) (.ofCells (columnCells n)))
    ((Numbering.ofCells (columnCells n)).facesOfCell k) = cubeFaces k := by
  have hn : 1 ≤ n := by omega
  have hgeometry : ∀ f ∈ (Numbering.ofCells (columnCells n)).facesOfCell k,
      (faceGeometries (columnVertices n : List (Vec3 ℝ)) (.ofCells (columnCells n))).getD f default =
        Polygon.geometry (corners (columnVertices n)
          ((Numbering.ofCells (columnCells n)).loop f)) :=
    fun f hf => faceGeometries_getD (Numbering.lt_of_mem_facesOfCell hf)
  have hsquares : ∀ q ∈ squares k, Polygon.geometry q.corners = ⟨q.center, q.vectorArea, 1⟩ :=
    fun q => geometry_square
  have hcorners := congrArg (List.map Polygon.geometry) (corners_loops hk)
  rw [← map_loop_faces hk, List.map_map, List.map_map, List.map_map] at hcorners
  rw [facesOf, List.map_congr_left hgeometry, facesOfCell_eq hk, ofCells_columnCells hn, cubeFaces,
    ← List.map_congr_left hsquares]
  exact hcorners

/-- The halves of the tetrahedra of a cube. -/
theorem halfVolume_eq {p : DualPart ℝ}
    (hp : p ∈ partsOfCell (columnVertices n) (.ofCells (columnCells n)) k) :
    p.halfVolume = 1 / 48 := by
  obtain ⟨f, hf, e, he, rfl⟩ := mem_partsOfCell.1 hp
  obtain ⟨s, hs, rfl⟩ := mem_faceEdges.1 he
  have hends := Numbering.ends_edgeId
    (Numbering.ofSide_mem_edges (Numbering.loop_mem_of_mem_facesOfCell hf) hs)
  obtain ⟨q, hq, hcorners⟩ := corners_loop hk (facesOfCell_eq hk ▸ hf)
  have hside : ((columnVertices n : List (Vec3 ℝ)).getD s.1 0, (columnVertices n).getD s.2 0) ∈
      cyclicPairs q.corners := by
    rw [← hcorners, corners, cyclicPairs_map]
    exact List.mem_map_of_mem hs
  have hhalf := q.halfVolume_eq hside (cubeCenter k)
  rw [(unit_square hq).2] at hhalf
  show Dual.halfVolume
    ((columnVertices n).getD ((Numbering.ofCells (columnCells n)).ends _).1 0)
    ((columnVertices n).getD ((Numbering.ofCells (columnCells n)).ends _).2 0) _ _ = _
  rw [hends, Dual.halfVolume_ofSide fun v => (columnVertices n : List (Vec3 ℝ)).getD v 0,
    facesOf_faces hk, cellCenter_cubeFaces, faceGeometries_getD (Numbering.lt_of_mem_facesOfCell hf),
    hcorners, geometry_square hq, hhalf]
  norm_num

/-- Every vertex of a cube is an end of six sides of its faces. -/
theorem count_ends {v : Nat} (hv : v ∈ List.range' (4 * k) 8) :
    ((partsOfCell (columnVertices n : List (Vec3 ℝ)) (.ofCells (columnCells n)) k).flatMap
      fun p => [p.ends.1, p.ends.2]).count v = 6 := by
  have hn : 1 ≤ n := by omega
  have hloops : ((Numbering.ofCells (columnCells n)).facesOfCell k).flatMap
      (Numbering.ofCells (columnCells n)).loop =
        (bottomLoop k :: addedLoops (4 * k)).flatten := by
    rw [facesOfCell_eq hk, ofCells_columnCells hn, List.flatMap_def, map_loop_faces hk]
  have hthree := (flatten_loops_perm k).count_eq v
  obtain ⟨hle, hlt⟩ := List.mem_range'_1.1 hv
  rw [count_hexahedron hle hlt] at hthree
  have hends := @ends_partsOfCell_perm ℝ _ (columnVertices n) (columnCells n) k
    (fun f hf => (nodup_loop hk hf).1) fun f hf => by rw [(nodup_loop hk hf).2]; decide
  rw [hends.count_eq, ← (List.flatMap_append_perm _ _ _).count_eq, List.count_append, hloops, hthree]

/-- **The dual volumes of a cube** are eighths: three faces meet at every vertex, and two sides of
each of them. -/
theorem cellDualVolumes_eq :
    (mesh ℝ n).cellDualVolumes.getD k [] = List.replicate 8 (1 / 8) := by
  have hentries : ∀ e ∈ (partsOfCell (columnVertices n) (.ofCells (columnCells n)) k).flatMap
      (fun p => [(p.ends.1, p.halfVolume), (p.ends.2, p.halfVolume)]), e.2 = (1 / 48 : ℝ) := by
    intro e he
    obtain ⟨p, hp, he⟩ := List.mem_flatMap.1 he
    simp only [List.mem_cons, List.not_mem_nil, or_false] at he
    rcases he with rfl | rfl <;> exact halfVolume_eq hk hp
  have hcolumns := cellVertices_eq (R := ℝ) hk
  rw [mesh, cellVertices_getD, vertexRow, SparseRow.columns_gather] at hcolumns
  rw [mesh, cellDualVolumes_getD, vertexRow, SparseRow.values_gather_of_forall hentries, hcolumns]
  have hcount : ∀ v ∈ List.range' (4 * k) 8, total (List.replicate
      (((partsOfCell (columnVertices n : List (Vec3 ℝ)) (.ofCells (columnCells n)) k).flatMap
        fun p => [(p.ends.1, p.halfVolume), (p.ends.2, p.halfVolume)]).map Prod.fst |>.count v)
      (1 / 48 : ℝ)) = 1 / 8 := by
    intro v hv
    rw [List.map_flatMap]
    simp only [List.map_cons, List.map_nil]
    rw [count_ends hk hv, total_eq_sum, List.sum_replicate]
    norm_num
  rw [List.map_congr_left hcount, List.map_const', List.length_range']

/-- The orientation of a face of a cube. -/
theorem faceSign_eq {f : Nat} (hf : f ∈ faces k) : (mesh ℝ n).faceSign k f =
    Cone.sign (cubeCenter k) (Polygon.geometry
      (corners (columnVertices n) ((Numbering.ofCells (columnCells n)).loop f))) := by
  have hface : f ∈ (Numbering.ofCells (columnCells n)).facesOfCell k := facesOfCell_eq hk ▸ hf
  rw [mesh, faceSign_eq_count, facesOf_faces hk, apex_cubeFaces, facesOfCell_eq hk,
    (nodup_faces k).count, if_pos hf, one_smul,
    faceGeometries_getD (Numbering.lt_of_mem_facesOfCell hface)]

end Cube

/-- The square between two cubes looks up. -/
theorem geometry_between {n k : Nat} (hk : k + 1 < n) :
    Polygon.geometry (corners (columnVertices n)
      ((Numbering.ofCells (columnCells n)).loop (5 * k + 1))) =
        (⟨⟨1 / 2, 1 / 2, (k + 1 : Nat)⟩, ⟨0, 0, 1⟩, 1⟩ : EntityGeometry ℝ) := by
  have hn : 1 ≤ n := by omega
  have hloop : (Numbering.ofCells (columnCells n)).loop (5 * k + 1) = bottomLoop (k + 1) := by
    rw [ofCells_columnCells hn, Numbering.loop, List.getD, show 5 * k + 1 = 5 * (k + 1) - 4 by omega,
      getElem?_bottom hk, Option.getD_some]
  rw [hloop, corners_bottomLoop hk.le, geometry_square (q := bottomSquare (k + 1)) (k := k + 1)
    List.mem_cons_self, center_bottomSquare, vectorArea_bottomSquare, if_neg k.succ_ne_zero]

/-- The quantities of unit cubes on top of each other. -/
structure UnitCubes (n : Nat) (m : PolyhedralMesh ℝ) : Prop where
  volume : ∀ k < n, fetch m.cellVolumes k = .ok 1
  center : ∀ k < n, fetch m.cellCenters k = .ok ⟨1 / 2, 1 / 2, k + 1 / 2⟩
  dualVolumes : ∀ k < n, fetch m.cellDualVolumes k = .ok (List.replicate 8 (1 / 8))
  /-- The face that two cubes share points out of the lower and into the upper one. -/
  opposite : ∀ k, k + 1 < n → ∀ f, f ∈ m.cellFaces.getD k [] → f ∈ m.cellFaces.getD (k + 1) [] →
    m.faceSign k f = 1 ∧ m.faceSign (k + 1) f = -1

theorem faceSign_between {n k : Nat} (hk : k + 1 < n) :
    (mesh ℝ n).faceSign k (5 * k + 1) = 1 ∧ (mesh ℝ n).faceSign (k + 1) (5 * k + 1) = -1 := by
  have hlower : 5 * k + 1 ∈ faces k := mem_faces.2 (by omega)
  have hupper : 5 * k + 1 ∈ faces (k + 1) := mem_faces.2 (by omega)
  rw [faceSign_eq (by omega) hlower, faceSign_eq hk hupper, geometry_between hk]
  constructor
  · refine if_pos ?_
    simp only [Cone.height, cubeCenter, Vec3.dot, Vec3.sub_x, Vec3.sub_y, Vec3.sub_z]
    norm_num
  · refine if_neg ?_
    simp only [Cone.height, cubeCenter, Vec3.dot, Vec3.sub_x, Vec3.sub_y, Vec3.sub_z]
    norm_num

theorem unitCubes (n : Nat) : UnitCubes n (mesh ℝ n) where
  volume k hk := by
    rw [fetch_getD (consistent hk).volume_lt 0, mesh, cellVolumes_getD ((length_cellFaces n).symm ▸ hk),
      facesOf_faces hk, cellVolume_cubeFaces]
  center k hk := by
    rw [fetch_getD (consistent hk).center_lt 0, mesh, cellCenters_getD ((length_cellFaces n).symm ▸ hk),
      facesOf_faces hk, cellCenter_cubeFaces, cubeCenter]
  dualVolumes k hk := by rw [fetch_getD (consistent hk).dualVolumes_lt [], cellDualVolumes_eq hk]
  opposite k hk f hlower hupper := by
    rw [cellFaces_eq (by omega), mem_faces] at hlower
    rw [cellFaces_eq hk, mem_faces] at hupper
    obtain rfl : f = 5 * k + 1 := by omega
    exact faceSign_between hk

end Column

namespace PolyhedralMesh

/-- **Columns of every height.**  A column of at least one cube can be built.  Whatever the numbers
are, each cube brings four vertices, eight edges and five faces, and its neighbours share one inner
face with it.  With real numbers every cube has the volume, the center and the dual volumes of a
unit cube, and the inner faces are oriented from the lower cube to the upper one. -/
theorem column_stacks_unitCubes {n : Nat} (hn : 1 ≤ n) :
    (∀ (R : Type) [Scalar R], ∃ m : PolyhedralMesh R, column n = .ok m ∧ Column.Stacked n m) ∧
      ∃ m : PolyhedralMesh ℝ, column n = .ok m ∧ Column.UnitCubes n m :=
  ⟨fun R _ => ⟨Column.mesh R n, Column.build_eq_ok n, Column.stacked hn⟩,
    Column.mesh ℝ n, Column.build_eq_ok n, Column.unitCubes n⟩

/-- A column of three cubes. -/
theorem column_stacks_unitCubes_three : ∃ m : PolyhedralMesh ℝ, column 3 = .ok m ∧
    m.cellCount = 3 ∧ m.vertexCount = 16 ∧ m.edgeCount = 28 ∧ m.faceCount = 16 ∧
    m.boundaryFaces.length = 14 ∧ fetch m.cellVolumes 1 = .ok 1 ∧
    fetch m.cellCenters 1 = .ok ⟨1 / 2, 1 / 2, 3 / 2⟩ ∧
    ∃ f, m.isBoundaryFace f = false ∧ m.faceSign 1 f = 1 ∧ m.faceSign 2 f = -1 := by
  obtain ⟨hstacked, m, hm, hcubes⟩ := column_stacks_unitCubes (n := 3) (by decide)
  obtain ⟨m', hm', hstack⟩ := hstacked ℝ
  obtain rfl : m' = m := Except.ok.inj (hm'.symm.trans hm)
  obtain ⟨f, hinner, hf⟩ := hstack.neighbours 1 (by decide)
  obtain ⟨hlower, hupper⟩ := (hf f).2 rfl
  refine ⟨m', hm, hstack.cellCount, hstack.vertexCount, hstack.edgeCount, hstack.faceCount,
    hstack.boundaryFaceCount, hcubes.volume 1 (by decide), ?_, f, hinner,
    hcubes.opposite 1 (by decide) f hlower hupper⟩
  rw [hcubes.center 1 (by decide)]
  norm_num

end PolyhedralMesh

end Polyfield
