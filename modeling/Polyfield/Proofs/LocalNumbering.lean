import Polyfield.Proofs.CellPieces
import Polyfield.Proofs.MeshNumbering
import Polyfield.Proofs.PieceMoments
import Polyfield.Proofs.StrayEdges
import Polyfield.Proofs.TetrahedronCell

/-!
# Local numbers of a cell

A cache numbers the vertices, edges and faces of its cell by their positions in the lists of the
cell, and keeps the edges of all faces in one list, divided by a table of offsets.

* `CellCache.pairwise_offsetsFrom` : offsets never decrease;
* `IsTriangle.corners_perm` : three edges in any order and of any directions give the corners of
  their triangle;
* `CellCache.LocallyNumbered` : what the local numbers say about the tables of the cell;
* `CellCache.local_numbering` : when building a cache fails, and that its numbers are these
  otherwise.
-/

namespace Polyfield

variable {R : Type}

namespace CellCache

/-! ## Offsets of the faces -/

theorem length_offsetsFrom (start : Nat) (ns : List Nat) :
    (offsetsFrom start ns).length = ns.length + 1 := by
  induction ns generalizing start with
  | nil => rfl
  | cons n ns ih => rw [offsetsFrom, List.length_cons, ih, List.length_cons]

theorem head?_offsetsFrom (start : Nat) (ns : List Nat) :
    (offsetsFrom start ns).head? = some start := by
  cases ns <;> rfl

theorem getLast?_offsetsFrom (start : Nat) (ns : List Nat) :
    (offsetsFrom start ns).getLast? = some (start + ns.sum) := by
  induction ns generalizing start with
  | nil => rfl
  | cons n ns ih =>
    rw [offsetsFrom, List.getLast?_cons, ih, List.sum_cons, ← Nat.add_assoc]
    rfl

/-- Offsets never decrease. -/
theorem pairwise_offsetsFrom (start : Nat) (ns : List Nat) :
    (offsetsFrom start ns).Pairwise (· ≤ ·) ∧ ∀ k ∈ offsetsFrom start ns, start ≤ k := by
  induction ns generalizing start with
  | nil => simp [offsetsFrom]
  | cons n ns ih =>
    obtain ⟨hpairwise, hle⟩ := ih (start + n)
    have hstart : ∀ k ∈ offsetsFrom (start + n) ns, start ≤ k := fun k hk =>
      Nat.le_trans (Nat.le_add_right start n) (hle k hk)
    rw [offsetsFrom]
    exact ⟨List.pairwise_cons.2 ⟨hstart, hpairwise⟩, List.forall_mem_cons.2 ⟨Nat.le_refl _, hstart⟩⟩

end CellCache

/-! ## Triangles -/

/-- Three edges, in any order and of any directions, that are the sides of a triangle. -/
structure IsTriangle (edges : List Edge) (u v w : Nat) : Prop where
  nodup : [u, v, w].Nodup
  sides : (edges.map Edge.pair).Perm [s(u, v), s(v, w), s(w, u)]

namespace IsTriangle

variable {edges : List Edge} {d₀ d₁ d₂ : Edge} {u v w : Nat}

theorem rotate (h : IsTriangle edges u v w) : IsTriangle edges v w u where
  nodup := by
    have hnodup := h.nodup
    simp only [List.nodup_cons, List.mem_cons, List.not_mem_nil, or_false] at hnodup ⊢
    tauto
  sides := h.sides.trans (List.perm_append_singleton s(u, v) [s(v, w), s(w, u)]).symm

/-- The end of the second side that is not an end of the first is the third corner. -/
theorem third_eq (h : IsTriangle [d₀, d₁, d₂] u v w) (hd : Edge.pair d₀ = s(u, v)) :
    (if d₁.1 = d₀.1 ∨ d₁.1 = d₀.2 then d₁.2 else d₁.1) = w := by
  have hother : Edge.pair d₁ ∈ [s(v, w), s(w, u)] := by
    have hrest := h.sides
    rw [List.map_cons, hd] at hrest
    exact (hrest.cons_inv.mem_iff).1 List.mem_cons_self
  have hnodup := h.nodup
  simp only [List.nodup_cons, List.mem_cons, List.not_mem_nil, or_false, not_or, Edge.pair,
    Sym2.eq_iff] at hnodup hother hd
  split <;> omega

/-- The ends of a side of a triangle, and the end of another side that is not among them, are its
corners. -/
theorem corners_perm (h : IsTriangle [d₀, d₁, d₂] u v w) :
    [d₀.1, d₀.2, if d₁.1 = d₀.1 ∨ d₁.1 = d₀.2 then d₁.2 else d₁.1].Perm [u, v, w] := by
  -- the first side is any of the three, in either direction
  have hside : ∀ {u v w}, IsTriangle [d₀, d₁, d₂] u v w → Edge.pair d₀ = s(u, v) →
      [d₀.1, d₀.2, if d₁.1 = d₀.1 ∨ d₁.1 = d₀.2 then d₁.2 else d₁.1].Perm [u, v, w] := by
    intro u v w h hd
    rw [h.third_eq hd]
    rcases Sym2.eq_iff.1 hd with ⟨h₁, h₂⟩ | ⟨h₁, h₂⟩
    · rw [h₁, h₂]
    · rw [h₁, h₂]
      exact List.Perm.swap u v [w]
  have hrotate : ∀ u v w : Nat, [v, w, u].Perm [u, v, w] := fun u v w =>
    List.perm_append_singleton u [v, w]
  have hmem : Edge.pair d₀ ∈ [s(u, v), s(v, w), s(w, u)] := h.sides.mem_iff.1 List.mem_cons_self
  simp only [List.mem_cons, List.not_mem_nil, or_false] at hmem
  rcases hmem with hd | hd | hd
  · exact hside h hd
  · exact (hside h.rotate hd).trans (hrotate u v w)
  · exact (hside h.rotate.rotate hd).trans ((hrotate v w u).trans (hrotate u v w))

end IsTriangle

/-! ## Local numbers -/

namespace CellCache

variable [Scalar R]

/-- What the local numbers of a cache say about the tables of its cell. -/
structure LocallyNumbered (cm : CellCache R) (m : MeshTables R) (c : Nat) : Prop where
  vertexIds : cm.vertexIds = m.cellVertices.getD c []
  edgeIds : cm.edgeIds = m.cellEdges.getD c []
  faceIds : cm.faceIds = m.cellFaces.getD c []
  length_edgeVertices : cm.edgeVertices.length = cm.edgeCount
  /-- The ends of a local edge are those of the edge in the mesh. -/
  ends : ∀ (k e a b : Nat), cm.edgeIds[k]? = some e → cm.edgeVertices[k]? = some (a, b) →
    cm.vertexIds[a]? = some (m.ends e).1 ∧ cm.vertexIds[b]? = some (m.ends e).2
  edgeVertices_lt : ∀ s ∈ cm.edgeVertices, s.1 < cm.vertexCount ∧ s.2 < cm.vertexCount
  length_starts : cm.faceStarts.length = cm.faceCount + 1
  first_start : cm.faceStarts.head? = some 0
  starts_le : cm.faceStarts.Pairwise (· ≤ ·)
  last_start : cm.faceStarts.getLast? = some cm.faceEdgeIds.length
  length_triangleAreas : cm.triangleAreas.length = cm.faceEdgeIds.length
  faceEdgeIds_lt : ∀ k ∈ cm.faceEdgeIds, k < cm.edgeCount
  /-- The edges of a local face are those of the face in the mesh, in the same order. -/
  faceEdges : ∀ k f : Nat, cm.faceIds[k]? = some f → ∃ es, cm.faceEdges k = .ok es ∧
    es.map (cm.edgeIds[·]?) = (m.faceEdges.getD f []).map some
  /-- The triangles of a local face are those between its edges and its center. -/
  faceTriangleAreas : ∀ k f : Nat, cm.faceIds[k]? = some f → cm.faceTriangleAreas k =
    .ok ((m.faceEdges.getD f []).map fun e =>
      triangleArea (m.point (m.ends e).1) (m.point (m.ends e).2) (m.faceCenters.getD f 0))
  /-- The local vertices of a triangle are its corners. -/
  triangleVertices : ∀ k f u v w : Nat, cm.faceIds[k]? = some f →
    IsTriangle ((m.faceEdges.getD f []).map m.ends) u v w →
      ∃ i j l, cm.triangleVertices k = .ok (i, j, l) ∧ [i, j, l].Nodup ∧
        ([i, j, l].map (cm.vertexIds[·]?)).Perm ([u, v, w].map some)

variable {m : MeshTables R} {c : Nat}

/-- The corners of a triangle in local numbers. -/
theorem triangleVertices_of_isTriangle (h : m.Consistent c) {k f u v w : Nat}
    (hk : (m.cellFaces.getD c [])[k]? = some f)
    (htri : IsTriangle ((m.faceEdges.getD f []).map m.ends) u v w) :
    ∃ i j l, (ofTables m c .all).triangleVertices k = .ok (i, j, l) ∧ [i, j, l].Nodup ∧
      ([i, j, l].map ((ofTables m c .all).vertexIds[·]?)).Perm ([u, v, w].map some) := by
  have hall := CapabilitySet.contains_all
  have hlen : (m.faceEdges.getD f []).length = 3 := by simpa using htri.sides.length_eq
  obtain ⟨e₀, e₁, e₂, hf⟩ := List.length_eq_three.1 hlen
  have hmem := fun e he => h.faceEdges_mem f (List.mem_of_getElem? hk) e he
  rw [hf] at htri hmem
  have h₀ := h.ends_mem e₀ (hmem e₀ (by simp))
  have hthird := MeshTables.thirdVertex_mem h (hmem e₁ (by simp)) e₀
  have hcorners : [(m.ends e₀).1, (m.ends e₀).2, m.thirdVertex e₀ e₁].Perm [u, v, w] :=
    htri.corners_perm
  set ids := [(m.ends e₀).1, (m.ends e₀).2, m.thirdVertex e₀ e₁] with hids
  have hvertex : ∀ x ∈ ids, x ∈ m.cellVertices.getD c [] := by
    simpa [hids] using ⟨h₀.1, h₀.2, hthird⟩
  refine ⟨_, _, _, triangleVertices_ofTables h (hall _) (hall _) hk hf, ?_, ?_⟩
  · show (ids.map (m.cellVertices.getD c []).idxOf).Nodup
    exact (hcorners.nodup_iff.2 htri.nodup).map_on fun x hx y _ hxy =>
      (List.idxOf_inj (hvertex x hx)).1 hxy
  · refine List.Perm.trans (.of_eq ?_) (hcorners.map some)
    rw [vertexIds_ofTables (hall _)]
    show (ids.map (m.cellVertices.getD c []).idxOf).map ((m.cellVertices.getD c [])[·]?) = _
    rw [List.map_map]
    exact List.map_congr_left fun x hx => List.getElem?_idxOf (hvertex x hx)

/-- The local numbers of the cache of a cell of consistent tables. -/
theorem locallyNumbered_ofTables (h : m.Consistent c) :
    (ofTables m c .all).LocallyNumbered m c := by
  have hall := CapabilitySet.contains_all
  have hposition : ∀ f ∈ m.cellFaces.getD c [], ∀ e ∈ m.faceEdges.getD f [],
      (m.cellEdges.getD c [])[m.edgePosition c e]? = some e := fun f hf e he =>
    List.getElem?_idxOf (h.faceEdges_mem f hf e he)
  constructor
  case vertexIds => exact vertexIds_ofTables (hall _)
  case edgeIds => exact edgeIds_ofTables (hall _)
  case faceIds => exact faceIds_ofTables (hall _)
  case length_edgeVertices =>
    rw [edgeVertices_ofTables (hall _), List.length_map, edgeCount, edgeIds_ofTables (hall _)]
  case ends =>
    intro k e a b hk hab
    rw [edgeIds_ofTables (hall _)] at hk
    rw [edgeVertices_ofTables (hall _), List.getElem?_map, hk, Option.map_some,
      Option.some.injEq, MeshTables.endPositions, Prod.mk.injEq] at hab
    have hmem := h.ends_mem e (List.mem_of_getElem? hk)
    rw [vertexIds_ofTables (hall _), ← hab.1, ← hab.2]
    exact ⟨List.getElem?_idxOf hmem.1, List.getElem?_idxOf hmem.2⟩
  case edgeVertices_lt =>
    intro s hs
    rw [edgeVertices_ofTables (hall _)] at hs
    obtain ⟨e, he, rfl⟩ := List.mem_map.1 hs
    have hmem := h.ends_mem e he
    rw [vertexCount, vertexIds_ofTables (hall _)]
    exact ⟨List.idxOf_lt_length_of_mem hmem.1, List.idxOf_lt_length_of_mem hmem.2⟩
  case length_starts =>
    rw [faceStarts_ofTables (hall _), length_offsetsFrom, List.length_map,
      faceCount_ofTables (hall _)]
  case first_start => rw [faceStarts_ofTables (hall _), head?_offsetsFrom]
  case starts_le =>
    rw [faceStarts_ofTables (hall _)]
    exact (pairwise_offsetsFrom _ _).1
  case last_start =>
    rw [faceStarts_ofTables (hall _), getLast?_offsetsFrom, faceEdgeIds_ofTables (hall _),
      List.length_flatMap, Nat.zero_add]
    simp only [List.length_map]
  case length_triangleAreas =>
    rw [triangleAreas_ofTables (hall _), faceEdgeIds_ofTables (hall _), List.length_flatMap,
      List.length_flatMap]
    simp only [List.length_map]
  case faceEdgeIds_lt =>
    intro k hk
    rw [faceEdgeIds_ofTables (hall _)] at hk
    obtain ⟨f, hf, hk⟩ := List.mem_flatMap.1 hk
    obtain ⟨e, he, rfl⟩ := List.mem_map.1 hk
    rw [edgeCount, edgeIds_ofTables (hall _)]
    exact List.idxOf_lt_length_of_mem (h.faceEdges_mem f hf e he)
  case faceEdges =>
    intro k f hk
    rw [faceIds_ofTables (hall _)] at hk
    refine ⟨_, faceEdges_ofTables (hall _) hk, ?_⟩
    rw [List.map_map, edgeIds_ofTables (hall _)]
    exact List.map_congr_left fun e he => hposition f (List.mem_of_getElem? hk) e he
  case faceTriangleAreas =>
    intro k f hk
    rw [faceIds_ofTables (hall _)] at hk
    exact faceTriangleAreas_ofTables (hall _) (hall _) hk
  case triangleVertices =>
    intro k f u v w hk htri
    rw [faceIds_ofTables (hall _)] at hk
    exact triangleVertices_of_isTriangle h hk htri

/-- The local numbers of every cache with all capabilities that was built. -/
theorem locallyNumbered_of_build {cm : CellCache R} (h : build m c .all = .ok cm) :
    cm.LocallyNumbered m c := by
  obtain ⟨hconsistent, rfl⟩ := build_all_eq_ok.1 h
  exact { locallyNumbered_ofTables hconsistent with }

/-- **Local numbering.**  From tables that are in range, building a cache with all capabilities
fails exactly if an edge of the cell ends outside its vertices, or else an edge of a face is not
among its edges; it never fails for the cells of a new mesh.  A cache that was built is numbered as
its cell. -/
theorem local_numbering :
    (∀ (m : MeshTables R) (c : Nat), m.InRange c →
      (build m c .all = .error .edgeVertexMissing ↔ m.HasStrayEdge c) ∧
      (build m c .all = .error .faceEdgeMissing ↔ ¬m.HasStrayEdge c ∧ m.HasStrayFaceEdge c) ∧
      (∀ b, build m c .all = .error b → b = .edgeVertexMissing ∨ b = .faceEdgeMissing) ∧
      ∀ cm, build m c .all = .ok cm → cm.LocallyNumbered m c) ∧
    ∀ (vertices : List (Vec3 R)) (cells : List (List Loop)) (m : PolyhedralMesh R) (c : Nat),
      PolyhedralMesh.build vertices cells = .ok m → c < m.cellCount →
        ∃ cm, build m.toMeshTables c .all = .ok cm ∧ cm.LocallyNumbered m.toMeshTables c := by
  refine ⟨fun m c h => ?_, fun vertices cells m c hm hc => ?_⟩
  · by_cases hedge : m.HasStrayEdge c
    · have hbuild := build_of_hasStrayEdge h hedge
      simp [hbuild, hedge]
    · by_cases hface : m.HasStrayFaceEdge c
      · have hbuild := build_of_hasStrayFaceEdge h hedge hface
        simp [hbuild, hedge, hface]
      · obtain ⟨cm, hbuild⟩ := exists_build_eq_ok h hedge hface
        simpa [hbuild, hedge, hface] using locallyNumbered_of_build hbuild
  · have hconsistent := PolyhedralMesh.consistent_of_build hm hc
    obtain ⟨cm, hbuild⟩ := exists_build_eq_ok hconsistent.inRange hconsistent.not_hasStrayEdge
      hconsistent.not_hasStrayFaceEdge
    exact ⟨cm, hbuild, locallyNumbered_of_build hbuild⟩

end CellCache

/-- The unit tetrahedron has a cache; without its list of edges it has none. -/
theorem local_numbering_unitMesh :
    (∃ cm, CellCache.build Tetrahedron.unitMesh.toMeshTables 0 .all = .ok cm ∧
      cm.LocallyNumbered Tetrahedron.unitMesh.toMeshTables 0) ∧
    let bare : MeshTables ℝ := { Tetrahedron.unitMesh.toMeshTables with cellEdges := [[]] }
    bare.InRange 0 ∧ CellCache.build bare 0 .all = .error .faceEdgeMissing := by
  have hm := Tetrahedron.build_unitMesh
  have hcell := Tetrahedron.regularCell_unitMesh
  have hrange := (PolyhedralMesh.consistent_of_build hm hcell.lt).inRange
  refine ⟨CellCache.local_numbering.2 _ _ _ _ hm hcell.lt, ?_⟩
  intro bare
  have hbare : bare.InRange 0 :=
    { hrange with
      edges_lt := Nat.one_pos
      edge_lt := by simp [bare] }
  have hf : 0 ∈ Tetrahedron.unitMesh.cellFaces.getD 0 [] := Tetrahedron.mem_cellFaces.2 (by simp)
  have hlen := (hcell.face hf).length_faceEdges hm hf
  obtain ⟨e, he⟩ := List.exists_mem_of_length_pos
    (Nat.lt_of_lt_of_le (by omega) (hlen ▸ RegularFace.three_le_length_loop hm hf))
  have hstray : ¬bare.HasStrayEdge 0 ∧ bare.HasStrayFaceEdge 0 :=
    ⟨by simp [bare, MeshTables.HasStrayEdge], 0, hf, e, he, by simp [bare]⟩
  exact ⟨hbare, (CellCache.local_numbering.1 bare 0 hbare).2.1.2 hstray⟩

end Polyfield
