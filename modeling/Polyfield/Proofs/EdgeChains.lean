import Polyfield.Proofs.MeshNumbering

/-!
# Faces as closed chains of edges

A face is stored as the edges of its first loop, each with the sum of the directions in which the
loop walks along it.  The loop closes, so at every vertex these directed edges arrive as often as
they leave, even where a loop comes back to a vertex or walks along an edge several times.

* `Edge.arrivals` : what a directed pair of vertices adds at a vertex;
* `sum_arrivals_cyclicPairs` : along a closed loop the arrivals cancel;
* `PolyhedralMesh.chainBoundary_assemble` : and so they do along the stored edges of a face;
* `PolyhedralMesh.exists_side_of_mem_faceRow` : an edge of a loop of distinct vertices belongs to
  one side, and has its direction;
* `PolyhedralMesh.DirectedLoop` : what the stored edges of a face say about such a loop.
-/

namespace Polyfield

/-! ## Arrivals -/

/-- Going from the first vertex of a pair to the second: `1` at the second, `-1` at the first, and
nothing at all if they are the same. -/
def Edge.arrivals (v : Nat) (s : Nat × Nat) : Int :=
  (if v = s.2 then 1 else 0) - (if v = s.1 then 1 else 0)

theorem Edge.arrivals_swap (v a b : Nat) : arrivals v (a, b) = -arrivals v (b, a) := by
  simp only [arrivals]
  omega

/-- **Along a closed loop the arrivals cancel**: every vertex is left as often as it is reached. -/
theorem sum_arrivals_cyclicPairs (v : Nat) (l : Loop) :
    ((cyclicPairs l).map (Edge.arrivals v)).sum = 0 :=
  sum_cyclicPairs_telescope (fun a : Nat => if v = a then (1 : Int) else 0) l

namespace PolyhedralMesh

section Tables

variable {R : Type}

/-- The edges of a face, each with its direction. -/
def directedEdges (m : PolyhedralMesh R) (f : Nat) : List (Nat × Int) :=
  (m.faceEdges.getD f []).zip (m.faceEdgeSigns.getD f [])

/-- The arrivals at a vertex along the directed edges of a face. -/
def chainBoundary (m : PolyhedralMesh R) (f v : Nat) : Int :=
  ((m.directedEdges f).map fun e => e.2 * Edge.arrivals v (m.ends e.1)).sum

/-- The stored edges of a face are those of the sides of a loop, as many as the loop has vertices,
and each has the direction in which the loop walks along it. -/
structure DirectedLoop (m : PolyhedralMesh R) (f : Nat) (l : Loop) : Prop where
  length_edges : (m.faceEdges.getD f []).length = l.length
  length_signs : (m.faceEdgeSigns.getD f []).length = l.length
  ordered : ∀ e ∈ m.directedEdges f, (m.ends e.1).1 < (m.ends e.1).2
  sign : ∀ e ∈ m.directedEdges f, e.2 = 1 ∨ e.2 = -1
  /-- A positive direction leads from the smaller vertex to the larger one. -/
  sign_eq_one_iff : ∀ e ∈ m.directedEdges f, e.2 = 1 ↔ m.ends e.1 ∈ cyclicPairs l

end Tables

variable {R : Type} [Scalar R] {vertices : List (Vec3 R)} {cells : List (List Loop)}

theorem directedEdges_assemble (vertices : List (Vec3 R)) (n : Numbering) (f : Nat) :
    (assemble vertices n).directedEdges f = faceRow n (n.loop f) := by
  rw [directedEdges, faceEdges_getD, faceEdgeSigns_getD, SparseRow.zip_columns_values]

/-! ## The boundary of a chain -/

/-- **The stored edges of a face are a closed chain.** -/
theorem chainBoundary_assemble {f : Nat} {l : Loop}
    (hf : (Numbering.ofCells cells).loops[f]? = some l) (v : Nat) :
    (assemble vertices (.ofCells cells)).chainBoundary f v = 0 := by
  have hl : l ∈ (Numbering.ofCells cells).loops := List.mem_of_getElem? hf
  have hloop : (Numbering.ofCells cells).loop f = l := by
    rw [Numbering.loop, List.getD, hf, Option.getD_some]
  -- a row adds up the directions of an edge, and arrivals are additive in them
  have hadditive : ∀ (e : Nat) (signs : List Int),
      signTotal signs * Edge.arrivals v ((Numbering.ofCells cells).ends e) =
        (signs.map fun s => s * Edge.arrivals v ((Numbering.ofCells cells).ends e)).sum := by
    intro e signs
    rw [signTotal_eq_sum, List.sum_map_mul_right, List.map_id']
  calc (assemble vertices (.ofCells cells)).chainBoundary f v
      = ((faceRow (.ofCells cells) l).map fun e =>
          e.2 * Edge.arrivals v ((Numbering.ofCells cells).ends e.1)).sum := by
        rw [chainBoundary, directedEdges_assemble, hloop]
        rfl
    _ = (((Numbering.ofCells cells).walk l).map fun e =>
          e.2 * Edge.arrivals v ((Numbering.ofCells cells).ends e.1)).sum :=
        SparseRow.sum_map_gather
          (fun (e : Nat) (s : Int) => s * Edge.arrivals v ((Numbering.ofCells cells).ends e))
          hadditive _
    _ = ((cyclicPairs l).map (Edge.arrivals v)).sum :=
        (Numbering.sum_sides_eq_sum_walk (G := fun a b => Edge.arrivals v (a, b))
          (Edge.arrivals_swap v) hl).symm
    _ = 0 := sum_arrivals_cyclicPairs v l

/-! ## Loops of distinct vertices -/

section Distinct

variable {l : Loop} (hl : l ∈ (Numbering.ofCells cells).loops) (hnd : l.Nodup)
  (hlen : 3 ≤ l.length)

include hl hnd hlen

/-- **An edge of a loop of distinct vertices belongs to one side**, and has its direction. -/
theorem exists_side_of_mem_faceRow {e : Nat × Int} (he : e ∈ faceRow (.ofCells cells) l) :
    ∃ s ∈ cyclicPairs l, (Numbering.ofCells cells).ends e.1 = Edge.ofSide s ∧
      e.2 = Edge.walkSign s := by
  obtain ⟨j, hj, rfl⟩ := List.mem_map.1 he
  obtain ⟨s, hs, rfl⟩ := Numbering.mem_walk_columns.1 (SparseRow.mem_sortedColumns.1 hj)
  have hentry : ((Numbering.ofCells cells).edgeId (Edge.ofSide s), Edge.walkSign s) ∈
      (Numbering.ofCells cells).walk l := List.mem_map_of_mem hs
  have hvalues := SparseRow.valuesAt_eq_singleton (Numbering.nodup_walk_columns hl hnd hlen) hentry
  refine ⟨s, hs, Numbering.ends_edgeId (Numbering.ofSide_mem_edges hl hs), ?_⟩
  rw [hvalues]
  simp [signTotal]

omit hl in
/-- The edge of a side is a side itself where the loop walks along it from its first vertex. -/
theorem walkSign_eq_one_iff {s : Nat × Nat} (hs : s ∈ cyclicPairs l) :
    Edge.walkSign s = 1 ↔ Edge.ofSide s ∈ cyclicPairs l := by
  obtain ⟨a, b⟩ := s
  have hne : a ≠ b := fst_ne_snd_of_nodup hnd (by omega) hs
  by_cases h : a < b
  · have hedge : Edge.ofSide (a, b) = (a, b) := by
      simp only [Edge.ofSide, Prod.mk.injEq]
      omega
    rw [hedge]
    simp [Edge.walkSign, h, hs]
  · have hedge : Edge.ofSide (a, b) = (a, b).swap := by
      simp only [Edge.ofSide, Prod.swap_prod_mk, Prod.mk.injEq]
      omega
    have hback : (a, b).swap ∉ cyclicPairs l := swap_notMem_cyclicPairs hnd hlen hs
    have hsign : Edge.walkSign (a, b) = -1 := if_neg h
    rw [hedge, hsign]
    exact iff_of_false (by decide) hback

/-- **The stored edges of a face say how its loop walks**, if its vertices are distinct. -/
theorem directedLoop_assemble {f : Nat} (hf : (Numbering.ofCells cells).loops[f]? = some l) :
    (assemble vertices (.ofCells cells)).DirectedLoop f l := by
  have hloop : (Numbering.ofCells cells).loop f = l := by
    rw [Numbering.loop, List.getD, hf, Option.getD_some]
  have hlength : ((assemble vertices (.ofCells cells)).faceEdges.getD f []).length = l.length := by
    rw [(faceEdges_perm (hloop ▸ hl) (hloop ▸ hnd) (hloop ▸ hlen)).length_eq, hloop,
      List.length_map, length_cyclicPairs]
  have hside : ∀ e ∈ (assemble vertices (.ofCells cells)).directedEdges f,
      ∃ s ∈ cyclicPairs l, (assemble vertices (.ofCells cells)).ends e.1 = Edge.ofSide s ∧
        e.2 = Edge.walkSign s := by
    intro e he
    rw [directedEdges_assemble, hloop] at he
    exact exists_side_of_mem_faceRow hl hnd hlen he
  exact {
    length_edges := hlength
    length_signs := by rw [← hlength, faceEdges_getD, faceEdgeSigns_getD, SparseRow.length_values]
    ordered := fun e he => by
      obtain ⟨s, hs, hends, -⟩ := hside e he
      have hne : s.1 ≠ s.2 := fst_ne_snd_of_nodup hnd (by omega) hs
      rw [hends]
      simp only [Edge.ofSide]
      omega
    sign := fun e he => by
      obtain ⟨s, -, -, hsign⟩ := hside e he
      rw [hsign]
      exact Edge.walkSign_eq s
    sign_eq_one_iff := fun e he => by
      obtain ⟨s, hs, hends, hsign⟩ := hside e he
      rw [hends, hsign]
      exact walkSign_eq_one_iff hnd hlen hs }

end Distinct

/-- **Faces are closed chains of edges.**  A new mesh has a face for each first loop.  Its stored
edges, in their directions, arrive at every vertex as often as they leave it.  If the vertices of
the loop are distinct, the face has an edge for each of them, and its direction is `1` or `-1`, and
`1` exactly where the loop walks along the edge from its smaller vertex to the larger one. -/
theorem faces_closedChains (h : checkCells vertices.length cells = .ok ()) :
    let m := assemble vertices (.ofCells cells)
    (build vertices cells = .ok m ∨ build vertices cells = .error .signOverflow) ∧
    m.faceCount = (Numbering.ofCells cells).loops.length ∧
    ∀ f l, (Numbering.ofCells cells).loops[f]? = some l →
      cells.flatten.find? (fun l' => l'.key = l.key) = some l ∧
      (∀ v, m.chainBoundary f v = 0) ∧ (l.Nodup → m.DirectedLoop f l) := by
  intro m
  refine ⟨(numbered_of_checkCells h).1, ?_, fun f l hf => ?_⟩
  · simp [m, assemble, MeshTables.faceCount, faceGeometries]
  · have hl : l ∈ (Numbering.ofCells cells).loops := List.mem_of_getElem? hf
    have hlen : 3 ≤ l.length := Numbering.three_le_length_of_mem_loops h hl
    exact ⟨find?_of_mem_firstSeen hl, chainBoundary_assemble hf,
      fun hnd => directedLoop_assemble hl hnd hlen hf⟩

end PolyhedralMesh

/-- A face whose loop comes back to a vertex, and a triangle that is walked downwards once. -/
theorem faces_closedChains_revisitedVertex :
    let points : List (Vec3 ℝ) := [0, ⟨1, 0, 0⟩, ⟨0, 1, 0⟩, ⟨0, 0, 1⟩]
    let cells := [[[0, 1, 2, 1], [0, 1, 3], [0, 3, 2], [1, 2, 3]]]
    let m := PolyhedralMesh.assemble points (.ofCells cells)
    PolyhedralMesh.checkCells points.length cells = .ok () ∧ m.faceCount = 4 ∧
      (∀ v, m.chainBoundary 0 v = 0) ∧ (m.faceEdges.getD 1 []).length = 3 := by
  intro points cells m
  have hcheck : PolyhedralMesh.checkCells points.length cells = .ok () :=
    PolyhedralMesh.checkCells_eq_ok.2 (by decide)
  have hloops : (Numbering.ofCells cells).loops =
      [[0, 1, 2, 1], [0, 1, 3], [0, 3, 2], [1, 2, 3]] := by cbv
  obtain ⟨-, hcount, hfaces⟩ := PolyhedralMesh.faces_closedChains hcheck
  obtain ⟨-, hchain, -⟩ := hfaces 0 [0, 1, 2, 1] (by rw [hloops]; rfl)
  obtain ⟨-, -, hloop⟩ := hfaces 1 [0, 1, 3] (by rw [hloops]; rfl)
  exact ⟨hcheck, by rw [hcount, hloops]; rfl, hchain, (hloop (by decide)).length_edges⟩

end Polyfield
