import Mathlib.Tactic.Ring
import Polyfield.Proofs.Batches
import Polyfield.Proofs.BuiltCache
import Polyfield.Proofs.DivergenceTheorem
import Polyfield.Proofs.QuadraticQuadrature

/-!
# Fluxes split between vertices

The parts of a flux that go to the vertices of a face add up to the flux through the face, where
both are exact.

* `Adds`, `Adds.foldlM` : a routine that adds an amount to some entries of a buffer, and what a loop
  of such routines adds;
* `CellCache.constantVertexFlux_ofTables`, `CellCache.functionVertexFlux_barySubdiv`,
  `CellCache.functionVertexFlux_higher` : a split flux as a loop over the edges of a face;
* `RegularFace.adds_sides` : a loop over the edges of a face reaches the vertices of the face only;
* `RegularFace.splits_bary`, `RegularFace.splits_barySubdiv`, `RegularFace.splits_higher` : what
  each level adds is the flux, for all functions, affine functions and quadratic functions;
* `CellCache.flux_splitting` : the same for the entries of a buffer.
-/

namespace Polyfield

/-! ## Amounts added to a buffer -/

theorem addAt_eq_ok {R : Type} [Scalar R] {buf : Buffer R} {i : Nat} {old : R}
    (h : buf[i]? = some old) (a : R) : addAt i a buf = .ok (buf.set i (old + a)) := by
  rw [addAt, fetch_eq_ok.2 h]
  rfl

/-- Some entries of a buffer have gained an amount in total, and the others are as they were. -/
structure Gains (S : Nat → Prop) (amount : ℝ) (buf out : Buffer ℝ) : Prop where
  length_eq : out.length = buf.length
  sum_eq : out.sum = buf.sum + amount
  frame : ∀ j, ¬S j → out[j]? = buf[j]?

/-- A routine that succeeds on every buffer that has the entries in `S`, and adds an amount to
them. -/
def Adds (S : Nat → Prop) (amount : ℝ) (f : Buffer ℝ → Except Breach (Buffer ℝ)) : Prop :=
  ∀ buf : Buffer ℝ, (∀ j, S j → j < buf.length) → ∃ out, f buf = .ok out ∧ Gains S amount buf out

namespace Adds

variable {S : Nat → Prop} {a b : ℝ} {f g : Buffer ℝ → Except Breach (Buffer ℝ)}

/-- Adding to one entry. -/
theorem addAt {i : Nat} (hi : S i) (a : ℝ) : Adds S a (Polyfield.addAt i a) := by
  intro buf hbuf
  have hlt : i < buf.length := hbuf i hi
  refine ⟨buf.set i (buf[i] + a), addAt_eq_ok (List.getElem?_eq_getElem hlt) a, ?_, ?_,
    fun j hj => ?_⟩
  · rw [List.length_set]
  · rw [List.sum_set', dif_pos hlt]
    ring
  · have hne : i ≠ j := fun h => hj (h ▸ hi)
    exact List.getElem?_set_ne hne

/-- One routine after the other. -/
theorem bind (hf : Adds S a f) (hg : Adds S b g) :
    Adds S (a + b) fun buf => f buf >>= g := by
  intro buf hbuf
  obtain ⟨mid, hmid, hfirst⟩ := hf buf hbuf
  obtain ⟨out, hout, hthen⟩ := hg mid (hfirst.length_eq.symm ▸ hbuf)
  refine ⟨out, (bind_of_ok hmid g).trans hout, ?_, ?_, fun j hj => ?_⟩
  · rw [hthen.length_eq, hfirst.length_eq]
  · rw [hthen.sum_eq, hfirst.sum_eq, add_assoc]
  · rw [hthen.frame j hj, hfirst.frame j hj]

/-- **A loop adds what its steps add.** -/
theorem foldlM {ι : Type} {step : Buffer ℝ → ι → Except Breach (Buffer ℝ)} {amount : ι → ℝ}
    {xs : List ι} (h : ∀ x ∈ xs, Adds S (amount x) (step · x)) :
    Adds S (xs.map amount).sum (xs.foldlM step ·) := by
  induction xs with
  | nil => exact fun buf _ => ⟨buf, rfl, rfl, by simp, fun _ _ => rfl⟩
  | cons x xs ih =>
    rw [List.map_cons, List.sum_cons]
    exact (h x List.mem_cons_self).bind (ih fun y hy => h y (List.mem_cons_of_mem x hy))

theorem addToEnds {ends : Nat × Nat} (hfirst : S ends.1) (hsecond : S ends.2) (a b : ℝ) :
    Adds S (a + b) (CellCache.addToEnds ends a b) :=
  (addAt hfirst a).bind (addAt hsecond b)

end Adds

/-! ## The edges of a face -/

section Sides

variable {R : Type} [Scalar R]

/-- An edge of a face with half of the area of its triangle. -/
def MeshTables.faceSide (m : MeshTables R) (c f e : Nat) : CellCache.FaceSide R :=
  ⟨m.endPositions c e, m.point (m.ends e).1, m.point (m.ends e).2, Scalar.half * m.sideArea f e⟩

/-- The half of the triangle of an edge that touches an end of the edge. -/
def CellCache.FaceSide.half (side : CellCache.FaceSide R) (faceCenter x : Vec3 R) : Simplex R 3 :=
  .triangle (Vec3.midpoint side.first side.second) faceCenter x side.halfArea

theorem CellCache.faceSides_ofTables {m : MeshTables R} {c k f : Nat} {ks : CapabilitySet}
    (h : m.Consistent c) (hks : ks.Closed) (hneeds : ks.contains .faceTriangles = true)
    (hk : (m.cellFaces.getD c [])[k]? = some f) : (ofTables m c ks).faceSides k =
      .ok ((m.faceEdges.getD f []).map (m.faceSide c f)) := by
  have hall : ∀ j ∈ Capability.faceTriangles.closure, ks.contains j = true := hks _ hneeds
  rw [faceSides, faceEdges_ofTables (hall _ (by decide)) hk,
    faceTriangleAreas_ofTables (hall _ (by decide)) hneeds hk, ok_bind, ok_bind, List.zip_map',
    List.mapM_map]
  refine mapM_eq_map fun e he => ?_
  have hmem := h.faceEdges_mem f (List.mem_of_getElem? hk) e he
  rw [Function.comp_apply]
  show (do
    let ends ← fetch (ofTables m c ks).edgeVertices (m.edgePosition c e)
    let points ← (ofTables m c ks).edgePoints (m.edgePosition c e)
    return (⟨ends, points.1, points.2, Scalar.half * m.sideArea f e⟩ : FaceSide R)) = _
  rw [fetch_edgeVertices_ofTables (hall _ (by decide)) hmem,
    edgePoints_ofTables h (hall _ (by decide)) (hall _ (by decide)) hmem]
  rfl

end Sides

/-! ## The parts of a flux -/

namespace CellCache

section Parts

variable {R : Type} [Scalar R] {cm : CellCache R} {f : SpaceTimeFunction R} {t : R}
  {face : EntityGeometry R} {side : FaceSide R}

theorem vectorAtCenter_eq_ok (hdim : f.dim = 3) :
    cm.vectorAtCenter t f = .ok (f.vector t cm.center) := by
  have hvalue : f.evaluate t [cm.center] (.all 1) (List.replicate 3 0) =
      .ok ([cm.center].map (f.components t)).flatten :=
    f.evaluate_all_eq_ok (by omega) t [cm.center] (by rw [List.length_replicate, hdim]; rfl)
  refine (bind_of_ok hvalue _).trans ?_
  rw [List.map_singleton, List.flatten_singleton, f.components_eq_vector hdim,
    Vec3.ofComponents_toList]

/-- The parts of both ends, from the values at the centroids of the two halves. -/
theorem subdividedShares_eq_ok (hdim : f.dim = 3) {first second : Vec3 R}
    (hhalves : halfCentroids side face.center = [first, second]) :
    subdividedShares face t f side = .ok (side.halfArea * face.unit.dot (f.vector t first),
      side.halfArea * face.unit.dot (f.vector t second)) := by
  have hvalues : f.evaluate t (halfCentroids side face.center) (.all 2) (List.replicate 6 0) =
      .ok ((halfCentroids side face.center).map (f.components t)).flatten :=
    f.evaluate_all_eq_ok (by omega) t _ (by rw [List.length_replicate, hdim]; rfl)
  refine (bind_of_ok hvalues _).trans ?_
  simp only [hhalves, List.map_cons, List.map_nil, f.components_eq_vector hdim]
  rfl

/-- Node by node of a rule the product of weight, area and normal part is added to one entry. -/
theorem addHalfFlux_eq_foldlM (hdim : f.dim = 3) (rule : SimplexRule R 3) (v : Nat) (x : Vec3 R)
    (buf : Buffer R) : addHalfFlux face t f rule side v x buf =
      (rule.samples (side.half face.center x).corners).foldlM (fun out s =>
        addAt v (s.weight * side.halfArea * face.unit.dot (f.vector t s.point)) out) buf := by
  have hvalues : rule.weightedValues t (side.half face.center x).corners f =
      .ok ((rule.samples (side.half face.center x).corners).map fun s =>
        (s.weight, (f.vector t s.point).toList)) := by
    simp only [SimplexRule.weightedValues, SimplexRule.requireDim_eq_ok (.inr (.inl hdim)), ok_bind,
      pure_eq_ok, f.components_eq_vector hdim]
  exact (bind_of_ok hvalues _).trans List.foldlM_map

omit [Scalar R] in
/-- The check of the length in front of a routine passes. -/
theorem requireVertices_bind {buf : Buffer R} (hbuf : cm.vertexCount ≤ buf.length)
    (routine : Fill R Unit) : (do
      Fill.ofUpdate fun buf =>
        if buf.length < cm.vertexCount then throw .shortVertexBuffer else return buf
      routine : Fill R Unit) buf = routine buf := by
  have hcheck : Fill.ofUpdate (fun buf : Buffer R =>
      if buf.length < cm.vertexCount then throw .shortVertexBuffer else return buf) buf =
        .ok () buf :=
    Fill.ofUpdate_eq_ok.2 (if_neg (Nat.not_lt.2 hbuf))
  show EStateM.bind _ _ buf = _
  rw [EStateM.bind, hcheck]

variable {q : Quantity R} {k : Nat} {level : Level} {buf : Buffer R}

theorem vertexFlux_constant {u : Vec3 R} (hq : q.source = .constant (.vector u))
    (hbuf : cm.vertexCount ≤ buf.length) :
    cm.vertexFlux q k t level buf = Fill.ofUpdate (cm.constantVertexFlux k u) buf := by
  rw [vertexFlux, hq]
  exact requireVertices_bind hbuf _

theorem vertexFlux_function (hq : q.source = .function f) (hdim : f.dim = 3)
    (hbuf : cm.vertexCount ≤ buf.length) :
    cm.vertexFlux q k t level buf = cm.functionVertexFlux k t f level buf := by
  rw [vertexFlux, hq]
  simp only [if_pos hdim]
  exact requireVertices_bind hbuf _

end Parts

/-! ## Loops over the edges of a face -/

section Loops

variable {R : Type} [Scalar R] {m : MeshTables R} {c k f : Nat} (h : m.Consistent c)
  (hk : (m.cellFaces.getD c [])[k]? = some f)

include h hk

/-- What a split flux reads from a cache. -/
theorem splitReads_ofTables :
    (ofTables m c .all).requires [.faceGeometry] = .ok () ∧
      (ofTables m c .all).requires fanNeeds = .ok () ∧
      fetch (ofTables m c .all).faces k = .ok (m.face f) ∧
      (ofTables m c .all).faceSides k = .ok ((m.faceEdges.getD f []).map (m.faceSide c f)) := by
  have hall := CapabilitySet.contains_all .faceTriangles
  obtain ⟨hreq, hfan, hfetch, -⟩ := fluxReads_ofTables h CapabilitySet.closed_all hall hk
  exact ⟨hreq, hfan, hfetch, faceSides_ofTables h CapabilitySet.closed_all hall hk⟩

theorem constantVertexFlux_ofTables (u : Vec3 R) :
    (ofTables m c .all).constantVertexFlux k u = fun buf =>
      ((m.faceEdges.getD f []).map (m.faceSide c f)).foldlM (fun out side =>
        addToEnds side.ends (side.halfArea * (m.face f).unit.dot u)
          (side.halfArea * (m.face f).unit.dot u) out) buf := by
  obtain ⟨-, hfan, hfetch, hsides⟩ := splitReads_ofTables h hk
  funext buf
  simp only [constantVertexFlux, hfan, hfetch, hsides, ok_bind]

theorem functionVertexFlux_barySubdiv (t : R) (func : SpaceTimeFunction R) :
    (ofTables m c .all).functionVertexFlux k t func .barySubdiv = Fill.ofUpdate fun buf =>
      ((m.faceEdges.getD f []).map (m.faceSide c f)).foldlM (fun out side => do
        let (first, second) ← subdividedShares (m.face f) t func side
        addToEnds side.ends first second out) buf := by
  obtain ⟨-, hfan, hfetch, hsides⟩ := splitReads_ofTables h hk
  simp only [functionVertexFlux, hfan, hfetch, hsides, ok_bind]

theorem functionVertexFlux_higher (t : R) (func : SpaceTimeFunction R) :
    (ofTables m c .all).functionVertexFlux k t func .higher = Fill.ofUpdate fun buf =>
      ((m.faceEdges.getD f []).map (m.faceSide c f)).foldlM (fun out side =>
        addHalfFlux (m.face f) t func (.triangle .higher) side side.ends.1 side.first out >>=
          addHalfFlux (m.face f) t func (.triangle .higher) side side.ends.2 side.second) buf := by
  obtain ⟨-, hfan, hfetch, hsides⟩ := splitReads_ofTables h hk
  simp only [functionVertexFlux, hfan, hfetch, hsides, ok_bind]

end Loops

/-! ## Exact shares -/

theorem halfCentroids_eq (side : FaceSide ℝ) (faceCenter : Vec3 ℝ) :
    halfCentroids side faceCenter = [(side.half faceCenter side.first).centroid,
      (side.half faceCenter side.second).centroid] := by
  simp [halfCentroids, FaceSide.half, Simplex.centroid_triangle, Vec3.div_eq_smul]

/-- What goes to a vertex from the half of a triangle that touches it. -/
theorem adds_addHalfFlux {f : SpaceTimeFunction ℝ} {t : ℝ} {face : EntityGeometry ℝ}
    {side : FaceSide ℝ} {S : Nat → Prop} (hdim : f.dim = 3) (rule : SimplexRule ℝ 3) {v : Nat}
    (hv : S v) (x : Vec3 ℝ) :
    Adds S (side.halfArea * rule.mean (side.half face.center x).corners
        fun y => face.unit.dot (f.vector t y))
      (addHalfFlux face t f rule side v x) := by
  have hsum : ((rule.samples (side.half face.center x).corners).map fun s =>
      s.weight * side.halfArea * face.unit.dot (f.vector t s.point)).sum =
        side.halfArea * rule.mean (side.half face.center x).corners
          fun y => face.unit.dot (f.vector t y) := by
    rw [SimplexRule.mean, ← List.sum_map_mul_left]
    exact congrArg List.sum (List.map_congr_left fun s _ => by ring)
  rw [funext (addHalfFlux_eq_foldlM hdim rule v x), ← hsum]
  exact Adds.foldlM fun s _ => Adds.addAt hv _

end CellCache

/-! ## Exact splits -/

/-- The sources of which a level computes the flux and its parts exactly. -/
inductive Source.SplitsAt (t : ℝ) : Level → Source ℝ → Prop
  /-- A constant vector, at every level. -/
  | constant (level : Level) (u : Vec3 ℝ) : SplitsAt t level (.constant (.vector u))
  /-- Any vector function. -/
  | bary {f : SpaceTimeFunction ℝ} (hdim : f.dim = 3) : SplitsAt t .bary (.function f)
  /-- A vector function that is affine at the time. -/
  | barySubdiv {f : SpaceTimeFunction ℝ} (hdim : f.dim = 3) (haffine : f.IsAffineAt t) :
    SplitsAt t .barySubdiv (.function f)
  /-- A vector function that is a polynomial of degree at most two at the time. -/
  | higher {f : SpaceTimeFunction ℝ} (hdim : f.dim = 3) (hquadratic : f.IsQuadraticAt t) :
    SplitsAt t .higher (.function f)

/-- A local vertex of a cell is a vertex of one of its faces. -/
def PolyhedralMesh.OnFace (cells : List (List Loop)) (m : PolyhedralMesh ℝ) (c f j : Nat) : Prop :=
  ∃ v ∈ (Numbering.ofCells cells).loop f, (m.cellVertices.getD c [])[j]? = some v

/-- A flux through a face, and a routine that adds it to the entries of the vertices of the face. -/
def PolyhedralMesh.SplitsFlux (cells : List (List Loop)) (m : PolyhedralMesh ℝ) (c f : Nat)
    (flux : Except Fault ℝ) (routine : Fill ℝ Unit) : Prop :=
  ∃ total update, flux = .ok total ∧ routine = Fill.ofUpdate update ∧
    Adds (m.OnFace cells c f) total update

namespace RegularFace

open CellCache

variable {cells : List (List Loop)} {vertices : List (Vec3 ℝ)} {m : PolyhedralMesh ℝ}
  {c k f : Nat} (hface : RegularFace cells m f)
  (hm : PolyhedralMesh.build vertices cells = .ok m) (hc : c < m.cellCount)
  (hk : (m.cellFaces.getD c [])[k]? = some f) {func : SpaceTimeFunction ℝ} {t : ℝ}

include hface hm hk

theorem sum_sideArea : ((m.faceEdges.getD f []).map (m.sideArea f)).sum = (m.face f).measure := by
  rw [← hface.sum_fan_measure hm (List.mem_of_getElem? hk), MeshTables.fan, List.map_map]
  rfl

include hc

/-- The ends of an edge of a face are local vertices of the face. -/
theorem onFace_endPositions {e : Nat} (he : e ∈ m.faceEdges.getD f []) :
    m.OnFace cells c f (m.endPositions c e).1 ∧ m.OnFace cells c f (m.endPositions c e).2 := by
  have hf := List.mem_of_getElem? hk
  have hcons := PolyhedralMesh.consistent_of_build hm hc
  obtain ⟨hfirst, hsecond⟩ := hcons.ends_mem e (hcons.faceEdges_mem f hf e he)
  obtain ⟨-, hfirst', hsecond', -⟩ := hface.exists_side_of_mem_faceEdges hm hf he
  exact ⟨⟨_, hfirst', List.getElem?_idxOf hfirst⟩, _, hsecond', List.getElem?_idxOf hsecond⟩

/-- A loop over the edges of a face adds what it adds for each edge. -/
theorem adds_sides {step : Buffer ℝ → FaceSide ℝ → Except Breach (Buffer ℝ)}
    {amount : FaceSide ℝ → ℝ} {total : ℝ}
    (hstep : ∀ side : FaceSide ℝ, m.OnFace cells c f side.ends.1 → m.OnFace cells c f side.ends.2 →
      Adds (m.OnFace cells c f) (amount side) (step · side))
    (htotal : ((m.faceEdges.getD f []).map fun e => amount (m.faceSide c f e)).sum = total) :
    Adds (m.OnFace cells c f) total fun buf =>
      ((m.faceEdges.getD f []).map (m.faceSide c f)).foldlM step buf := by
  rw [← htotal]
  simp only [List.foldlM_map]
  refine Adds.foldlM fun e he => ?_
  obtain ⟨hfirst, hsecond⟩ := hface.onFace_endPositions hm hc hk he
  exact hstep _ hfirst hsecond

/-- The parts of the flux of a constant add up to the flux. -/
theorem adds_constantVertexFlux (u : Vec3 ℝ) :
    Adds (m.OnFace cells c f) ((m.face f).measure * (m.face f).unit.dot u)
      ((ofTables m.toMeshTables c .all).constantVertexFlux k u) := by
  rw [constantVertexFlux_ofTables (PolyhedralMesh.consistent_of_build hm hc) hk]
  refine hface.adds_sides hm hc hk (fun side hfirst hsecond =>
    Adds.addToEnds hfirst hsecond _ _) ?_
  rw [← hface.sum_sideArea hm hk, ← List.sum_map_mul_right]
  refine congrArg List.sum (List.map_congr_left fun e _ => ?_)
  rw [MeshTables.faceSide, Scalar.half_real]
  ring

/-! ## The levels -/

theorem splits_constant (u : Vec3 ℝ) :
    m.SplitsFlux cells c f (liftM ((ofTables m.toMeshTables c .all).constantFlux k u))
      (Fill.ofUpdate ((ofTables m.toMeshTables c .all).constantVertexFlux k u)) := by
  obtain ⟨hreq, -, hfetch, -⟩ :=
    splitReads_ofTables (PolyhedralMesh.consistent_of_build hm hc) hk
  refine ⟨_, _, ?_, rfl, hface.adds_constantVertexFlux hm hc hk u⟩
  rw [constantFlux, hreq, ok_bind, hfetch]
  rfl

/-- At the lowest level both sides take the value at the cell center. -/
theorem splits_bary (hdim : func.dim = 3) :
    m.SplitsFlux cells c f ((ofTables m.toMeshTables c .all).functionFlux k t func .bary)
      ((ofTables m.toMeshTables c .all).functionVertexFlux k t func .bary) := by
  obtain ⟨hreq, hfan, hfetch, -⟩ :=
    splitReads_ofTables (PolyhedralMesh.consistent_of_build hm hc) hk
  set cm := ofTables m.toMeshTables c .all
  have hsamples : cm.fluxSamples k func.dim .bary = .ok [⟨(m.face f).measure, cm.center⟩] := by
    simp only [fluxSamples, hreq, hfetch, liftM_ok, ok_bind, pure_eq_ok]
  have hroutine : cm.functionVertexFlux k t func .bary =
      Fill.ofUpdate (cm.constantVertexFlux k (func.vector t cm.center)) := by
    rw [functionVertexFlux]
    simp only [hfan, hfetch, vectorAtCenter_eq_ok hdim, ok_bind]
  refine ⟨_, _, ?_, hroutine, hface.adds_constantVertexFlux hm hc hk _⟩
  rw [functionFlux_eq_ok hdim hsamples hfetch, List.map_singleton, List.sum_singleton]

/-- For affine functions the values at the centroids of both halves of a triangle make twice the
value at its centroid. -/
theorem splits_barySubdiv (hdim : func.dim = 3) (haffine : func.IsAffineAt t) :
    m.SplitsFlux cells c f ((ofTables m.toMeshTables c .all).functionFlux k t func .barySubdiv)
      ((ofTables m.toMeshTables c .all).functionVertexFlux k t func .barySubdiv) := by
  have hcons := PolyhedralMesh.consistent_of_build hm hc
  obtain ⟨-, -, hfetch, -⟩ := splitReads_ofTables hcons hk
  have hsamples := fluxSamples_barySubdiv hcons CapabilitySet.closed_all
    (CapabilitySet.contains_all _) hk func.dim
  obtain ⟨g, b, hg⟩ := haffine.exists_dot_vector (m.face f).unit
  refine ⟨_, fun buf => ((m.faceEdges.getD f []).map (m.faceSide c f)).foldlM (fun out side =>
      addToEnds side.ends
        (side.halfArea * (m.face f).unit.dot
          (func.vector t (side.half (m.face f).center side.first).centroid))
        (side.halfArea * (m.face f).unit.dot
          (func.vector t (side.half (m.face f).center side.second).centroid)) out) buf,
    functionFlux_eq_ok hdim hsamples hfetch, ?_, ?_⟩
  · simp only [functionVertexFlux_barySubdiv hcons hk,
      subdividedShares_eq_ok hdim (halfCentroids_eq _ _), ok_bind]
  · refine hface.adds_sides hm hc hk (fun side hfirst hsecond =>
      Adds.addToEnds hfirst hsecond _ _) ?_
    rw [MeshTables.centerFan, List.map_map, List.map_map]
    refine congrArg List.sum (List.map_congr_left fun e _ => ?_)
    simp only [Function.comp_apply, centroid_eq, Simplex.centroid_triangle, MeshTables.faceSide,
      FaceSide.half, hg, Vec3.dot_smul, Vec3.dot_add, Vec3.midpoint_eq, Scalar.half_real]
    simp only [Simplex.triangle]
    ring

/-- The rule of three nodes is exact for quadratic functions on a triangle and on its halves. -/
theorem splits_higher (hdim : func.dim = 3) (hquadratic : func.IsQuadraticAt t) :
    m.SplitsFlux cells c f ((ofTables m.toMeshTables c .all).functionFlux k t func .higher)
      ((ofTables m.toMeshTables c .all).functionVertexFlux k t func .higher) := by
  have hcons := PolyhedralMesh.consistent_of_build hm hc
  obtain ⟨-, -, hfetch, -⟩ := splitReads_ofTables hcons hk
  have hsamples := fluxSamples_rule hcons CapabilitySet.closed_all
    (CapabilitySet.contains_all _) hk (.inr (.inl hdim)) (.inl rfl)
  have hφ := hquadratic.isQuadratic_dot_vector (m.face f).unit
  refine ⟨_, _, functionFlux_eq_ok hdim hsamples hfetch,
    functionVertexFlux_higher hcons hk t func, ?_⟩
  refine hface.adds_sides hm hc hk (fun side hfirst hsecond =>
    (adds_addHalfFlux hdim _ hfirst _).bind (adds_addHalfFlux hdim _ hsecond _)) ?_
  rw [sum_flatMap_map, MeshTables.centerFan, List.map_map]
  refine congrArg List.sum (List.map_congr_left fun e _ => ?_)
  have hhalves := hφ.mean_halves (m.point (m.ends e).1) (m.point (m.ends e).2) (m.face f).center
  have harea : (m.faceSide c f e).halfArea = 1 / 2 * m.sideArea f e := by
    rw [MeshTables.faceSide, Scalar.half_real]
  rw [← mul_add, harea]
  set whole := SimplexRule.triangleThree.mean
    #v[(m.face f).center, m.point (m.ends e).1, m.point (m.ends e).2]
    fun x => (m.face f).unit.dot (func.vector t x)
  calc
    _ = 1 / 2 * m.sideArea f e * (2 * whole) := congrArg (1 / 2 * m.sideArea f e * ·) hhalves
    _ = m.sideArea f e * whole := by ring
    _ = _ := (SimplexRule.sum_samples_measure _ (.triangle _ _ _ _) fun x =>
      (m.face f).unit.dot (func.vector t x)).symm

/-- The flux of a source that splits exactly, and what its parts are written by. -/
theorem exists_splitsFlux {q : Quantity ℝ} {level : Level} (hq : q.source.SplitsAt t level) :
    ∃ routine : Fill ℝ Unit,
      m.SplitsFlux cells c f ((ofTables m.toMeshTables c .all).faceFlux q k t level) routine ∧
      ∀ buf : Buffer ℝ, (ofTables m.toMeshTables c .all).vertexCount ≤ buf.length →
        (ofTables m.toMeshTables c .all).vertexFlux q k t level buf = routine buf := by
  have hfunction : ∀ {func : SpaceTimeFunction ℝ}, q.source = .function func → func.dim = 3 →
      (ofTables m.toMeshTables c .all).faceFlux q k t level =
        (ofTables m.toMeshTables c .all).functionFlux k t func level := by
    intro func hsource hdim
    rw [faceFlux, hsource]
    exact if_pos hdim
  generalize hsource : q.source = source at hq
  cases hq with
  | constant level u =>
    refine ⟨_, ?_, fun buf hbuf => vertexFlux_constant hsource hbuf⟩
    rw [faceFlux, hsource]
    exact hface.splits_constant hm hc hk u
  | bary hdim =>
    refine ⟨_, ?_, fun buf hbuf => vertexFlux_function hsource hdim hbuf⟩
    rw [hfunction hsource hdim]
    exact hface.splits_bary hm hc hk hdim
  | barySubdiv hdim haffine =>
    refine ⟨_, ?_, fun buf hbuf => vertexFlux_function hsource hdim hbuf⟩
    rw [hfunction hsource hdim]
    exact hface.splits_barySubdiv hm hc hk hdim haffine
  | higher hdim hquadratic =>
    refine ⟨_, ?_, fun buf hbuf => vertexFlux_function hsource hdim hbuf⟩
    rw [hfunction hsource hdim]
    exact hface.splits_higher hm hc hk hdim hquadratic

end RegularFace

/-- **Flux splitting is exact.**  What the split flux through a planar convex face of a cell adds to
a buffer is in total the flux through the face: for constants at every level, for all functions at
the lowest, for affine functions at the next and for quadratic ones at the third.  The entries of
vertices that are not on the face stay as they are. -/
theorem CellCache.flux_splitting {cells : List (List Loop)} {vertices : List (Vec3 ℝ)}
    {m : PolyhedralMesh ℝ} {c k f : Nat} {cm : CellCache ℝ}
    (hm : PolyhedralMesh.build vertices cells = .ok m)
    (hcm : CellCache.build m.toMeshTables c .all = .ok cm)
    (hk : cm.faceIds[k]? = some f) (hface : RegularFace cells m f)
    {q : Quantity ℝ} {t : ℝ} {level : Level} (hq : q.source.SplitsAt t level)
    {buf : Buffer ℝ} (hbuf : cm.vertexCount ≤ buf.length) :
    ∃ (flux : ℝ) (out : Buffer ℝ), cm.faceFlux q k t level = .ok flux ∧
      cm.vertexFlux q k t level buf = .ok () out ∧ out.length = buf.length ∧
      out.sum - buf.sum = flux ∧
      ∀ j : Nat, (∀ v ∈ (Numbering.ofCells cells).loop f, cm.vertexIds[j]? ≠ some v) →
        out[j]? = buf[j]? := by
  have hc : c < m.cellCount := (build_all_eq_ok.1 hcm).1.volume_lt
  have hcons := PolyhedralMesh.consistent_of_build hm hc
  rw [build_eq_ofTables hcons CapabilitySet.closed_all] at hcm
  obtain rfl := Except.ok.inj hcm
  have hvertexIds : (ofTables m.toMeshTables c .all).vertexIds = m.cellVertices.getD c [] :=
    vertexIds_ofTables (CapabilitySet.contains_all _)
  rw [faceIds_ofTables (CapabilitySet.contains_all _)] at hk
  obtain ⟨routine, ⟨flux, update, hflux, rfl, hadds⟩, hrun⟩ :=
    hface.exists_splitsFlux hm hc hk hq
  have hrun := hrun buf hbuf
  rw [vertexCount, hvertexIds] at hbuf
  obtain ⟨out, hout, hgains⟩ := hadds buf fun j hj => by
    obtain ⟨v, -, hjv⟩ := hj
    exact (List.getElem?_eq_some_iff.1 hjv).1.trans_le hbuf
  refine ⟨flux, out, hflux, hrun.trans (Fill.ofUpdate_eq_ok.2 hout),
    hgains.length_eq, ?_, fun j hj => hgains.frame j ?_⟩
  · rw [hgains.sum_eq, add_sub_cancel_left]
  · rintro ⟨v, hv, hjv⟩
    exact hj v hv (hvertexIds ▸ hjv)

/-- The flux of a quadratic field through a face of the unit tetrahedron, split in a buffer of one
entry more than there are vertices. -/
theorem flux_splitting_unitMesh :
    ∃ (cm : CellCache ℝ) (k : Nat),
      CellCache.build Tetrahedron.unitMesh.toMeshTables 0 .all = .ok cm ∧
      cm.faceIds[k]? = some 0 ∧ ∃ (flux : ℝ) (out : Buffer ℝ),
        cm.faceFlux ⟨.cell, .function ⟨3, fun t x => #v[x.x * x.y + t, x.z, x.z * x.z]⟩⟩ k 5
          .higher = .ok flux ∧
        cm.vertexFlux ⟨.cell, .function ⟨3, fun t x => #v[x.x * x.y + t, x.z, x.z * x.z]⟩⟩ k 5
          .higher [1, 2, 3, 4, 7] = .ok () out ∧
        out.sum - 17 = flux ∧ out[4]? = some 7 := by
  have hm := Tetrahedron.build_unitMesh
  have hcell := Tetrahedron.regularCell_unitMesh
  have hcons := PolyhedralMesh.consistent_of_build hm hcell.lt
  have hcm := CellCache.build_eq_ofTables hcons CapabilitySet.closed_all
  have hf : 0 ∈ Tetrahedron.unitMesh.cellFaces.getD 0 [] := Tetrahedron.mem_cellFaces.2 (by simp)
  set cm := CellCache.ofTables Tetrahedron.unitMesh.toMeshTables 0 .all with hcmdef
  have hk : cm.faceIds[(Tetrahedron.unitMesh.cellFaces.getD 0 []).idxOf 0]? = some 0 := by
    rw [hcmdef, CellCache.faceIds_ofTables (CapabilitySet.contains_all _)]
    exact List.getElem?_idxOf hf
  have hlength : cm.vertexIds.length ≤ 4 := by
    rw [hcmdef, CellCache.vertexIds_ofTables (CapabilitySet.contains_all _)]
    have hsub : Tetrahedron.unitMesh.cellVertices.getD 0 [] ⊆ List.range 4 := fun v hv =>
      List.mem_range.2 (Tetrahedron.mem_cellVertices.1 hv)
    simpa using (List.subperm_of_subset (PolyhedralMesh.nodup_cellVertices hm 0) hsub).length_le
  have hquadratic : SpaceTimeFunction.IsQuadraticAt
      ⟨3, fun t x => #v[x.x * x.y + t, x.z, x.z * x.z]⟩ 5 := by
    intro i
    fin_cases i
    · refine ⟨⟨⟨0, 1, 0⟩, 0, 0⟩, 0, 5, fun x => ?_⟩
      show x.x * x.y + 5 = _
      simp [Tensor.apply, Vec3.dot]
    · refine ⟨⟨0, 0, 0⟩, ⟨0, 0, 1⟩, 0, fun x => ?_⟩
      show x.z = _
      simp [Tensor.apply, Vec3.dot]
    · refine ⟨⟨0, 0, ⟨0, 0, 1⟩⟩, 0, 0, fun x => ?_⟩
      show x.z * x.z = _
      simp [Tensor.apply, Vec3.dot]
  obtain ⟨flux, out, hflux, hout, -, hsum, hframe⟩ := CellCache.flux_splitting hm hcm hk
    (hcell.face hf) (q := ⟨.cell, .function _⟩) (.higher rfl hquadratic)
    (show cm.vertexCount ≤ [1, 2, 3, 4, (7 : ℝ)].length from hlength.trans (by decide))
  refine ⟨cm, _, hcm, hk, flux, out, hflux, hout, ?_, hframe 4 fun v _ => ?_⟩
  · rw [← hsum]
    norm_num
  · rw [List.getElem?_eq_none (by omega)]
    simp

end Polyfield
