import Polyfield.Mesh.Column
import Polyfield.Proofs.MeshNumbering
import Polyfield.Proofs.RegivenLoops
import Polyfield.Proofs.Slots

/-!
# The numbering of a column of cubes

A cube on top of a column has its bottom face and the four edges around it in common with the cube
below, and brings five faces and eight edges of its own.  So the faces and edges of a column are
numbered cube by cube, from the bottom to the top.

* `Column.numbering` : the faces and edges of a column in the order of their numbers, and the
  faces of its cubes;
* `Column.firstSeen_loops`, `Column.firstSeen_edges` : what one more cube adds;
* `Column.ofCells_columnCells` : this is how a column is numbered.
-/

namespace Polyfield

open PolyhedralMesh

namespace Column

/-! ## Faces and edges by number -/

/-- The loops that a cube with its bottom at vertices `v` to `v + 3` adds to a column: those of its
top and its sides. -/
def addedLoops (v : Nat) : List Loop := (hexahedron v).tail

/-- The edges that it adds. -/
def addedEdges (v : Nat) : List Edge :=
  [(v + 4, v + 5), (v + 5, v + 6), (v + 6, v + 7), (v + 4, v + 7), (v + 1, v + 5), (v, v + 4),
    (v + 2, v + 6), (v + 3, v + 7)]

/-- The loop of the bottom of cube `k`, which is that of the top of the cube below. -/
def bottomLoop : Nat → Loop
  | 0 => [0, 3, 2, 1]
  | k + 1 => [4 * k + 4, 4 * k + 5, 4 * k + 6, 4 * k + 7]

/-- The faces of cube `k`: its bottom, its top and its sides. -/
def faces (k : Nat) : List Nat :=
  [5 * k - 4, 5 * k + 1, 5 * k + 2, 5 * k + 3, 5 * k + 4, 5 * k + 5]

/-- The numbering of a column of `n` cubes. -/
def numbering (n : Nat) : Numbering where
  loops := [0, 3, 2, 1] :: (List.range n).flatMap fun k => addedLoops (4 * k)
  edges := [(0, 3), (2, 3), (1, 2), (0, 1)] ++ (List.range n).flatMap fun k => addedEdges (4 * k)
  cellFaces := (List.range n).map faces

/-! ## One cube -/

/-- All cubes have the same loops, counted from their first vertices. -/
theorem hexahedron_eq_map (v : Nat) : hexahedron v = (hexahedron 0).map (List.map (v + ·)) := rfl

theorem bounds_of_mem_hexahedron {v u : Nat} {l : Loop} (hl : l ∈ hexahedron v) (hu : u ∈ l) :
    v ≤ u ∧ u < v + 8 := by
  simp only [hexahedron, List.mem_cons, List.not_mem_nil, or_false] at hl
  rcases hl with rfl | rfl | rfl | rfl | rfl | rfl <;>
    · simp only [List.mem_cons, List.not_mem_nil, or_false] at hu
      omega

theorem bottomLoop_perm (k : Nat) :
    (bottomLoop k).Perm [4 * k, 4 * k + 3, 4 * k + 2, 4 * k + 1] := by
  cases k with
  | zero => exact .refl _
  | succ k => exact ((List.reverse_perm [4 * k + 5, 4 * k + 6, 4 * k + 7]).symm).cons (4 * k + 4)

theorem square_of_mem_hexahedron {v : Nat} {l : Loop} (hl : l ∈ hexahedron v) :
    l.Nodup ∧ l.length = 4 := by
  have hzero : ∀ l ∈ hexahedron 0, l.Nodup ∧ l.length = 4 := by decide
  rw [hexahedron_eq_map] at hl
  obtain ⟨l₀, hl₀, rfl⟩ := List.mem_map.1 hl
  rw [List.length_map]
  exact ⟨(hzero l₀ hl₀).1.map (add_right_injective v), (hzero l₀ hl₀).2⟩

/-- The top and the sides of a cube reach above its bottom. -/
theorem exists_ge_of_mem_addedLoops {v : Nat} {l : Loop} (hl : l ∈ addedLoops v) :
    ∃ u ∈ l, v + 4 ≤ u := by
  simp only [addedLoops, hexahedron, List.tail_cons, List.mem_cons, List.not_mem_nil,
    or_false] at hl
  rcases hl with rfl | rfl | rfl | rfl | rfl <;> simp

/-- The faces of a cube are distinct. -/
theorem nodup_keys_hexahedron (v : Nat) : ((hexahedron v).map Loop.key).Nodup := by
  have hzero : (hexahedron 0).Pairwise fun l l' => ¬l.Perm l' := by decide
  rw [hexahedron_eq_map, List.map_map, List.Nodup, List.pairwise_map]
  refine hzero.imp fun hne hkey => hne ?_
  exact (List.map_perm_map_iff (add_right_injective v)).1 (Loop.key_eq_iff.1 hkey)

/-! ## Edges of one cube -/

/-- An edge moved to other vertices. -/
def moveEdge (v : Nat) : Edge → Edge := Prod.map (v + ·) (v + ·)

theorem moveEdge_injective (v : Nat) : Function.Injective (moveEdge v) :=
  Function.Injective.prodMap (add_right_injective v) (add_right_injective v)

theorem ofSide_moveEdge (v : Nat) (s : Nat × Nat) :
    Edge.ofSide (moveEdge v s) = moveEdge v (Edge.ofSide s) := by
  simp [Edge.ofSide, moveEdge, Nat.add_min_add_left, Nat.add_max_add_left]

/-- The edges of the sides of some loops. -/
def sideEdges (ls : List Loop) : List Edge := (ls.flatMap cyclicPairs).map Edge.ofSide

theorem sideEdges_map (v : Nat) (ls : List Loop) :
    sideEdges (ls.map (List.map (v + ·))) = (sideEdges ls).map (moveEdge v) := by
  have hside : ∀ l : Loop, cyclicPairs (l.map (v + ·)) = (cyclicPairs l).map (moveEdge v) :=
    cyclicPairs_map (v + ·)
  simp only [sideEdges, List.flatMap_map, hside, List.map_flatMap, List.map_map, Function.comp_def,
    ofSide_moveEdge]

theorem firstSeen_sideEdges_map (v : Nat) (ls : List Loop) :
    firstSeen id (sideEdges (ls.map (List.map (v + ·)))) =
      (firstSeen id (sideEdges ls)).map (moveEdge v) := by
  have hkey : ∀ a b, id (moveEdge v a) = id (moveEdge v b) ↔ id a = id b :=
    fun a b => (moveEdge_injective v).eq_iff
  rw [sideEdges_map, firstSeen_map hkey]

/-- The edges of the bottom of a cube. -/
def bottomEdges (v : Nat) : List Edge := [(v, v + 1), (v + 1, v + 2), (v + 2, v + 3), (v, v + 3)]

/-- Whichever way the loop of a bottom walks, its edges are those of the bottom. -/
theorem sides_bottomLoop_perm (k : Nat) :
    ((cyclicPairs (bottomLoop k)).map Edge.ofSide).Perm (bottomEdges (4 * k)) := by
  cases k with
  | zero => decide
  | succ k => exact .of_eq (by simp [cyclicPairs, Edge.ofSide, bottomLoop, bottomEdges, Nat.mul_succ])

/-- **The top and the sides of a cube have the edges that the cube adds**, and those of its
bottom. -/
theorem firstSeen_addedLoops (v : Nat) : firstSeen id (sideEdges (addedLoops v)) =
    [(v + 4, v + 5), (v + 5, v + 6), (v + 6, v + 7), (v + 4, v + 7), (v, v + 1), (v + 1, v + 5),
      (v, v + 4), (v + 1, v + 2), (v + 2, v + 6), (v + 2, v + 3), (v + 3, v + 7), (v, v + 3)] := by
  have hzero : firstSeen id (sideEdges (addedLoops 0)) =
      [(4, 5), (5, 6), (6, 7), (4, 7), (0, 1), (1, 5), (0, 4), (1, 2), (2, 6), (2, 3), (3, 7),
        (0, 3)] := by decide
  have hmove : addedLoops v = (addedLoops 0).map (List.map (v + ·)) := rfl
  rw [hmove, firstSeen_sideEdges_map, hzero]
  rfl

/-! ## One cube more -/

theorem columnCells_succ (n : Nat) :
    columnCells (n + 1) = columnCells n ++ [hexahedron (4 * n)] := by
  rw [columnCells, List.range_succ, List.map_append]
  rfl

/-- The vertices of a column lie in the layers of its cubes. -/
theorem lt_of_mem_columnCells {n u : Nat} {l : Loop} (hl : l ∈ (columnCells n).flatten)
    (hu : u ∈ l) : u < 4 * n + 4 := by
  obtain ⟨cell, hcell, hl⟩ := List.mem_flatten.1 hl
  obtain ⟨k, hk, rfl⟩ := List.mem_map.1 hcell
  have hbound := bounds_of_mem_hexahedron hl hu
  have hlt := List.mem_range.1 hk
  omega

theorem loops_succ (n : Nat) : (numbering (n + 1)).loops =
    (numbering n).loops ++ addedLoops (4 * n) := by
  simp [numbering, List.range_succ, List.flatMap_append]

theorem edges_succ (n : Nat) : (numbering (n + 1)).edges =
    (numbering n).edges ++ addedEdges (4 * n) := by
  simp [numbering, List.range_succ, List.flatMap_append]

/-- The top of a cube, which is the bottom of the next one. -/
theorem top_mem_columnCells {n : Nat} (hn : 1 ≤ n) : bottomLoop n ∈ (columnCells n).flatten := by
  obtain ⟨k, rfl⟩ := Nat.exists_eq_add_of_le' hn
  rw [columnCells_succ, List.flatten_append, List.mem_append]
  right
  simp [hexahedron, bottomLoop]

/-- **The faces of a column are numbered cube by cube.** -/
theorem firstSeen_loops {n : Nat} (hn : 1 ≤ n) :
    firstSeen Loop.key (columnCells n).flatten = (numbering n).loops := by
  induction n, hn using Nat.le_induction with
  | base => exact firstSeen_eq_self (nodup_keys_hexahedron 0)
  | succ n hn ih =>
    have hbottom : Loop.key [4 * n, 4 * n + 3, 4 * n + 2, 4 * n + 1] ∈
        (columnCells n).flatten.map Loop.key :=
      List.mem_map.2 ⟨_, top_mem_columnCells hn, Loop.key_eq_iff.2 (bottomLoop_perm n)⟩
    have hadded : ∀ l ∈ addedLoops (4 * n), Loop.key l ∉ (columnCells n).flatten.map Loop.key := by
      intro l hl hold
      obtain ⟨l', hl', hkey⟩ := List.mem_map.1 hold
      obtain ⟨u, hu, hge⟩ := exists_ge_of_mem_addedLoops hl
      have hlt := lt_of_mem_columnCells hl' ((Loop.key_eq_iff.1 hkey).mem_iff.2 hu)
      omega
    have hsplit : hexahedron (4 * n) =
        [4 * n, 4 * n + 3, 4 * n + 2, 4 * n + 1] :: addedLoops (4 * n) := rfl
    rw [columnCells_succ, List.flatten_append, List.flatten_singleton, firstSeen_append, ih,
      firstSeen_eq_self (nodup_keys_hexahedron _), loops_succ, hsplit,
      List.filter_cons_of_neg (by simpa using hbottom),
      List.filter_eq_self.2 fun l hl => by simpa using hadded l hl]

theorem mem_columnCells_of_mem_loops {n : Nat} (hn : 1 ≤ n) {l : Loop}
    (hl : l ∈ (numbering n).loops) : l ∈ (columnCells n).flatten :=
  mem_of_mem_firstSeen (firstSeen_loops hn ▸ hl)

/-- The top of the highest cube is numbered with the loop given for it. -/
theorem top_mem_loops {n : Nat} (hn : 1 ≤ n) : bottomLoop n ∈ (numbering n).loops := by
  obtain ⟨k, rfl⟩ := Nat.exists_eq_add_of_le' hn
  rw [loops_succ, List.mem_append]
  right
  simp [addedLoops, hexahedron, bottomLoop]

/-- **The edges of a column are numbered cube by cube.** -/
theorem firstSeen_edges {n : Nat} (hn : 1 ≤ n) :
    firstSeen id (sideEdges (numbering n).loops) = (numbering n).edges := by
  induction n, hn using Nat.le_induction with
  | base => decide
  | succ n hn ih =>
    have hold : ∀ e ∈ bottomEdges (4 * n), e ∈ sideEdges (numbering n).loops := by
      intro e he
      obtain ⟨s, hs, rfl⟩ := List.mem_map.1 ((sides_bottomLoop_perm n).mem_iff.2 he)
      exact List.mem_map_of_mem (List.mem_flatMap.2 ⟨_, top_mem_loops hn, hs⟩)
    have hnew : ∀ a b, 4 * n + 4 ≤ b → (a, b) ∉ sideEdges (numbering n).loops := by
      intro a b hb he
      obtain ⟨s, hs, hside⟩ := List.mem_map.1 he
      obtain ⟨l, hl, hs⟩ := List.mem_flatMap.1 hs
      have hl := mem_columnCells_of_mem_loops hn hl
      have hfst := lt_of_mem_columnCells hl (fst_mem_of_mem_cyclicPairs hs)
      have hsnd := lt_of_mem_columnCells hl (snd_mem_of_mem_cyclicPairs hs)
      have hmax : max s.1 s.2 = b := congrArg Prod.snd hside
      omega
    have hsides : sideEdges (numbering (n + 1)).loops =
        sideEdges (numbering n).loops ++ sideEdges (addedLoops (4 * n)) := by
      simp only [sideEdges, loops_succ, List.flatMap_append, List.map_append]
    simp only [bottomEdges, List.forall_mem_cons] at hold
    rw [hsides, firstSeen_append, ih, edges_succ, firstSeen_addedLoops, List.map_id]
    simp [hold, hnew, addedEdges]

/-! ## All cubes -/

/-- The faces that a cube adds, by their numbers. -/
theorem getElem?_loops {n k i : Nat} (hk : k < n) (hi : i < 5) :
    (numbering n).loops[5 * k + i + 1]? = (addedLoops (4 * k))[i]? := by
  have hfive : ∀ ls ∈ (List.range n).map fun k => addedLoops (4 * k), ls.length = 5 := by
    intro ls hls
    obtain ⟨k, -, rfl⟩ := List.mem_map.1 hls
    rfl
  rw [numbering, List.flatMap_def, List.getElem?_cons_succ, getElem?_flatten_slot hfive k hi,
    List.getElem?_map, List.getElem?_range hk]
  rfl

/-- A face is known by any loop with its vertices. -/
theorem idxOf_key {n j : Nat} (hn : 1 ≤ n) {l l' : Loop}
    (hj : (numbering n).loops[j]? = some l') (hl : l'.Perm l) :
    ((numbering n).loops.map Loop.key).idxOf l.key = j := by
  have hnd : ((numbering n).loops.map Loop.key).Nodup :=
    firstSeen_loops hn ▸ nodup_firstSeen Loop.key _
  have hkey : ((numbering n).loops.map Loop.key)[j]? = some l.key := by
    rw [List.getElem?_map, hj, Option.map_some, Loop.key_eq_iff.2 hl]
  exact (idxOf_eq_iff_getElem? hnd (List.mem_of_getElem? hkey)).2 hkey

/-- The bottom of a cube is numbered with the cube below, if there is one. -/
theorem getElem?_bottom {n k : Nat} (hk : k < n) :
    (numbering n).loops[5 * k - 4]? = some (bottomLoop k) := by
  cases k with
  | zero => rfl
  | succ k =>
    rw [show 5 * (k + 1) - 4 = 5 * k + 0 + 1 by omega,
      getElem?_loops (show k < n by omega) (show 0 < 5 by decide)]
    rfl

/-- **This is how a column is numbered.** -/
theorem ofCells_columnCells {n : Nat} (hn : 1 ≤ n) :
    Numbering.ofCells (columnCells n) = numbering n := by
  have hfaces : ∀ k < n, (hexahedron (4 * k)).map
      (fun l => ((numbering n).loops.map Loop.key).idxOf l.key) = faces k := by
    intro k hk
    have hadded : ∀ i < 5, ∀ l, (addedLoops (4 * k))[i]? = some l →
        ((numbering n).loops.map Loop.key).idxOf l.key = 5 * k + i + 1 :=
      fun i hi l hl => idxOf_key hn ((getElem?_loops hk hi).trans hl) (.refl l)
    rw [hexahedron, List.map_cons, idxOf_key hn (getElem?_bottom hk) (bottomLoop_perm k), faces]
    simp only [List.map_cons, List.map_nil, hadded 0 (by decide) _ rfl,
      hadded 1 (by decide) _ rfl, hadded 2 (by decide) _ rfl, hadded 3 (by decide) _ rfl,
      hadded 4 (by decide) _ rfl, Nat.add_zero, Nat.add_assoc, Nat.reduceAdd]
  have hcells : (columnCells n).map (fun cell => cell.map fun l =>
      ((numbering n).loops.map Loop.key).idxOf l.key) = (List.range n).map faces := by
    rw [columnCells, List.map_map]
    exact List.map_congr_left fun k hk => hfaces k (List.mem_range.1 hk)
  have hedges := firstSeen_edges hn
  simp only [Numbering.ofCells, firstSeen_loops hn, hcells]
  rw [sideEdges] at hedges
  rw [hedges]
  rfl

end Column

end Polyfield
