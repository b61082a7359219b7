import Polyfield.Proofs.PieceMoments
import Polyfield.Proofs.TetrahedronCell

/-!
# The discrete divergence theorem

The fluxes of an affine field through the faces of a regular cell, each along the outward normal,
add up to the trace of its matrix times the cell volume, at every level but the lowest.

* `RegularCell.faceFlux_affine` : the flux through a face is the one of the value at its center;
* `RegularCell.outwardFlux_eq_ok` : so the flux out of the cell is that out of a closed surface;
* `RegularCell.divergence_theorem` : affine and constant fields, on any cache that can compute
  their fluxes.
-/

namespace Polyfield

/-! ## The flux out of a cell -/

/-- The sum of the fluxes through the faces of a cell, each along the normal that points out of
the cell. -/
noncomputable def CellCache.outwardFlux (cm : CellCache ℝ) (q : Quantity ℝ) (t : ℝ)
    (level : Level) : Except Fault ℝ := do
  let fluxes ← (List.range cm.faceCount).mapM fun k => cm.faceFlux q k t level
  return (List.zipWith (fun (sign : Int) flux => (sign : ℝ) * flux) cm.faceSigns fluxes).sum

namespace CellCache

variable {R : Type} [Scalar R] {m : MeshTables R} {c k f : Nat} {ks : CapabilitySet}

/-- What a flux reads from a cache that holds the triangles of the faces. -/
theorem fluxReads_ofTables (h : m.Consistent c) (hks : ks.Closed)
    (hneeds : ks.contains .faceTriangles = true)
    (hk : (m.cellFaces.getD c [])[k]? = some f) :
    (ofTables m c ks).requires [.faceGeometry] = .ok () ∧
      (ofTables m c ks).requires fanNeeds = .ok () ∧
      fetch (ofTables m c ks).faces k = .ok (m.face f) ∧
      (ofTables m c ks).centerFan k = .ok (m.centerFan f) := by
  have hall : ∀ j ∈ Capability.faceTriangles.closure, ks.contains j = true := hks _ hneeds
  have hfan : ∀ j ∈ fanNeeds, ks.contains j = true := fun j hj =>
    hall j ((show ∀ j ∈ fanNeeds, j ∈ Capability.faceTriangles.closure by decide) j hj)
  have hfaces : ks.contains .faceGeometry = true := hall _ (by decide)
  exact ⟨requires_eq_ok.2 fun j hj => List.mem_singleton.1 hj ▸ hfaces, requires_eq_ok.2 hfan,
    fetch_faces_ofTables hfaces hk, centerFan_ofTables h hfan hfaces (hall _ (by decide)) hk⟩

/-- The samples of a flux at the level that takes one for each triangle. -/
theorem fluxSamples_barySubdiv (h : m.Consistent c) (hks : ks.Closed)
    (hneeds : ks.contains .faceTriangles = true)
    (hk : (m.cellFaces.getD c [])[k]? = some f) (dim : Nat) :
    (ofTables m c ks).fluxSamples k dim .barySubdiv =
      .ok ((m.centerFan f).map fun s => ⟨s.measure, centroid s.corners⟩) := by
  obtain ⟨hface, hfan, hfetch, htriangles⟩ := fluxReads_ofTables h hks hneeds hk
  simp only [fluxSamples, hface, hfan, hfetch, htriangles, liftM_ok, ok_bind, pure_eq_ok]

/-- The samples of a flux at the levels that use a rule on each triangle. -/
theorem fluxSamples_rule (h : m.Consistent c) (hks : ks.Closed)
    (hneeds : ks.contains .faceTriangles = true)
    (hk : (m.cellFaces.getD c [])[k]? = some f) {dim : Nat}
    (hdim : dim = 1 ∨ dim = 3 ∨ dim = 9) {level : Level}
    (hlevel : level = .higher ∨ level = .highest) :
    (ofTables m c ks).fluxSamples k dim level =
      .ok ((m.centerFan f).flatMap fun s =>
        ((SimplexRule.triangle level).samples s.corners).map fun p =>
          ⟨p.weight * s.measure, p.point⟩) := by
  obtain ⟨hface, hfan, hfetch, htriangles⟩ := fluxReads_ofTables h hks hneeds hk
  rcases hlevel with rfl | rfl <;>
    simp only [fluxSamples, hface, hfan, hfetch, htriangles, liftM_ok, ok_bind, pure_eq_ok,
      SimplexRule.triangleFor_eq_ok _ hdim]

/-! ## Values at the samples -/

omit [Scalar R] in
theorem componentsAt_eq_ok {func : SpaceTimeFunction R} (hdim : func.dim = 3 ∨ func.dim = 9)
    (t : R) (x : Vec3 R) : componentsAt func t x = .ok (func.components t x) := by
  unfold componentsAt maxComponents
  rw [if_neg (by omega), if_neg (by omega)]

/-- The flux of a vector function, sample by sample. -/
theorem functionFlux_eq_foldl {cm : CellCache R} {func : SpaceTimeFunction R} (hdim : func.dim = 3)
    (t : R) {level : Level} {ss : List (Sample R)} {face : EntityGeometry R}
    (hss : cm.fluxSamples k func.dim level = .ok ss) (hface : fetch cm.faces k = .ok face) :
    cm.functionFlux k t func level = .ok (ss.foldl
      (fun flux s => flux + s.weight * face.unit.dot (func.vector t s.point)) 0) := by
  rw [functionFlux, hss, ok_bind, hface, liftM_ok, ok_bind]
  refine foldlM_eq_foldl (fun flux s _ => ?_) 0
  rw [componentsAt_eq_ok (.inl hdim), func.components_eq_vector hdim]
  rfl

end CellCache

/-! ## Fluxes of affine fields -/

/-- The flux of a vector function as a sum over the samples. -/
theorem CellCache.functionFlux_eq_ok {f : SpaceTimeFunction ℝ} (hdim : f.dim = 3)
    {cm : CellCache ℝ} {k : Nat} {t : ℝ} {level : Level} {ss : List (Sample ℝ)}
    {face : EntityGeometry ℝ} (hss : cm.fluxSamples k f.dim level = .ok ss)
    (hface : fetch cm.faces k = .ok face) :
    cm.functionFlux k t f level =
      .ok (ss.map fun s => s.weight * face.unit.dot (f.vector t s.point)).sum := by
  rw [functionFlux_eq_foldl hdim t hss hface, foldl_add_eq_sum]

/-- A function is at a time the affine field of a tensor and a vector. -/
def SpaceTimeFunction.IsField (f : SpaceTimeFunction ℝ) (t : ℝ) (A : Tensor ℝ) (b : Vec3 ℝ) :
    Prop :=
  ∀ x, f.components t x = (A.apply x + b).toList

theorem CellCache.centroid_eq (s : Simplex ℝ 3) : CellCache.centroid s.corners = s.centroid := by
  obtain ⟨⟨⟨corners⟩, hlength⟩, measure⟩ := s
  obtain ⟨a, b, c, rfl⟩ := List.length_eq_three.1 hlength
  simp [CellCache.centroid, Simplex.centroid, Vec3.div_eq_smul, add_assoc]

theorem Tensor.zero_apply_add (x b : Vec3 ℝ) : Tensor.apply ⟨0, 0, 0⟩ x + b = b := by
  ext <;> simp [Tensor.apply]

/-- The component of an affine field in a direction. -/
theorem Tensor.dot_apply (A : Tensor ℝ) (n : Vec3 ℝ) :
    ∃ g : Vec3 ℝ, ∀ x, n.dot (A.apply x) = g.dot x := by
  refine ⟨n.x • A.row0 + n.y • A.row1 + n.z • A.row2, fun x => ?_⟩
  simp only [Vec3.dot, Tensor.apply, Vec3.add_x, Vec3.add_y, Vec3.add_z, Vec3.smul_x, Vec3.smul_y,
    Vec3.smul_z]
  ring

namespace SpaceTimeFunction.IsField

variable {f : SpaceTimeFunction ℝ} {t : ℝ} {A : Tensor ℝ} {b : Vec3 ℝ}

theorem dim_eq (h : f.IsField t A b) : f.dim = 3 := by
  rw [← f.length_components t 0, h, Vec3.length_toList]

theorem vector_eq (h : f.IsField t A b) (x : Vec3 ℝ) : f.vector t x = A.apply x + b := by
  rw [SpaceTimeFunction.vector, h x]
  rfl

/-- The flux of a field as a sum over the samples. -/
theorem functionFlux_eq_ok (h : f.IsField t A b) {cm : CellCache ℝ} {k : Nat} {level : Level}
    {ss : List (Sample ℝ)} {face : EntityGeometry ℝ}
    (hss : cm.fluxSamples k f.dim level = .ok ss) (hface : fetch cm.faces k = .ok face) :
    cm.functionFlux k t f level =
      .ok (ss.map fun s => s.weight * face.unit.dot (A.apply s.point + b)).sum := by
  simp only [CellCache.functionFlux_eq_ok h.dim_eq hss hface, h.vector_eq]

end SpaceTimeFunction.IsField

/-- **The samples of a flux add up to the area of the face and to its first moment.** -/
theorem RegularFace.exists_fluxSamples {cells : List (List Loop)} {vertices : List (Vec3 ℝ)}
    {m : PolyhedralMesh ℝ} {c k face : Nat} {ks : CapabilitySet}
    (hface : RegularFace cells m face) (hm : PolyhedralMesh.build vertices cells = .ok m)
    (hc : c < m.cellCount) (hks : ks.Closed) (hneeds : ks.contains .faceTriangles = true)
    (hk : (m.cellFaces.getD c [])[k]? = some face) {dim : Nat}
    (hdim : dim = 1 ∨ dim = 3 ∨ dim = 9) {level : Level} (hlevel : level ≠ .bary) :
    ∃ ss, (CellCache.ofTables m.toMeshTables c ks).fluxSamples k dim level = .ok ss ∧
      (ss.map (·.weight)).sum = (m.face face).measure ∧
      (ss.map fun s => s.weight • s.point).sum =
        (m.face face).measure • (m.face face).center := by
  have hcons := PolyhedralMesh.consistent_of_build hm hc
  have hmem := List.mem_of_getElem? hk
  rw [← hface.sum_centerFan_moment hm hmem, ← hface.sum_centerFan_measure hm hmem]
  by_cases hsubdiv : level = .barySubdiv
  · subst hsubdiv
    refine ⟨_, CellCache.fluxSamples_barySubdiv hcons hks hneeds hk dim, ?_, ?_⟩
    · rw [List.map_map]
      rfl
    · rw [List.map_map]
      refine congrArg List.sum (List.map_congr_left fun s _ => ?_)
      rw [Function.comp_apply, CellCache.centroid_eq]
  · have hrule : level = .higher ∨ level = .highest := by
      cases level with
      | bary => exact absurd rfl hlevel
      | barySubdiv => exact absurd rfl hsubdiv
      | higher => exact .inl rfl
      | highest => exact .inr rfl
    have hr := SimplexRule.isCentered_triangle level
    refine ⟨_, CellCache.fluxSamples_rule hcons hks hneeds hk hdim hrule, ?_, ?_⟩
    · rw [sum_flatMap_map]
      refine congrArg List.sum (List.map_congr_left fun s _ => ?_)
      rw [SimplexRule.samples, List.map_map, List.map_map]
      simp only [Function.comp_def, List.sum_map_mul_right, hr.sum_weight, one_mul]
    · rw [sum_flatMap_map]
      refine congrArg List.sum (List.map_congr_left fun s _ => ?_)
      rw [SimplexRule.samples, List.map_map, List.map_map, ← hr.sum_pointIn, smul_sum_map]
      refine congrArg List.sum (List.map_congr_left fun node _ => ?_)
      rw [Function.comp_apply, Function.comp_apply, mul_comm, mul_smul]

namespace RegularCell

variable {cells : List (List Loop)} {vertices : List (Vec3 ℝ)} {m : PolyhedralMesh ℝ} {c : Nat}
  (hm : PolyhedralMesh.build vertices cells = .ok m) (hc : RegularCell cells m c)
  {ks : CapabilitySet} {k face : Nat} {q : Quantity ℝ} {t : ℝ} {A : Tensor ℝ} {b : Vec3 ℝ}

include hm hc

/-- **The flux of an affine field through a face** is that of its value at the face center. -/
theorem faceFlux_affine (hks : ks.Closed) (hneeds : ks.contains .faceTriangles = true)
    (hk : (m.cellFaces.getD c [])[k]? = some face) {f : SpaceTimeFunction ℝ}
    (hq : q.source = .function f) (hf : f.IsField t A b) {level : Level}
    (hlevel : level ≠ .bary) :
    (CellCache.ofTables m.toMeshTables c ks).faceFlux q k t level =
      .ok ((m.face face).measure *
        (m.face face).unit.dot (A.apply (m.face face).center + b)) := by
  have hcons := PolyhedralMesh.consistent_of_build hm hc.lt
  obtain ⟨-, -, hfetch, -⟩ := CellCache.fluxReads_ofTables hcons hks hneeds hk
  obtain ⟨ss, hss, hweight, hmoment⟩ :=
    (hc.face (List.mem_of_getElem? hk)).exists_fluxSamples hm hc.lt hks hneeds hk
      (.inr (.inl hf.dim_eq)) hlevel
  obtain ⟨g, hg⟩ := A.dot_apply (m.face face).unit
  have hsum := sum_affine hweight hmoment g ((m.face face).unit.dot b)
  rw [CellCache.faceFlux, hq]
  refine (if_pos hf.dim_eq).trans ?_
  rw [hf.functionFlux_eq_ok hss hfetch]
  simp only [Vec3.dot_add, hg, hsum]

/-- **The flux of an affine field out of a cell**, from its fluxes through the faces. -/
theorem outwardFlux_eq_ok (hids : ks.contains .faceIds = true) {level : Level}
    (hflux : ∀ k face, (m.cellFaces.getD c [])[k]? = some face →
      (CellCache.ofTables m.toMeshTables c ks).faceFlux q k t level =
        .ok ((m.face face).measure *
          (m.face face).unit.dot (A.apply (m.face face).center + b))) :
    (CellCache.ofTables m.toMeshTables c ks).outwardFlux q t level =
      .ok (A.trace * m.cellVolumes.getD c 0) := by
  have hcons := PolyhedralMesh.consistent_of_build hm hc.lt
  have hsigns : (m.cellFaces.getD c []).map (m.faceSign c) = m.cellFaceSigns.getD c [] :=
    map_lookup_zip (PolyhedralMesh.nodup_cellFaces hm c) hcons.length_signs.symm 0
  rw [CellCache.outwardFlux, CellCache.faceCount_ofTables hids, mapM_range_eq_map hflux, ok_bind,
    CellCache.faceSigns_ofTables hids, ← hsigns, List.zipWith_map, List.zipWith_self,
    ← (closedSurface_volume hm hc).sum_dot_apply A b]
  refine congrArg (fun xs => Except.ok (List.sum xs)) (List.map_congr_left fun face hface => ?_)
  rw [vectorArea_eq hm hc hface, Vec3.smul_dot]

/-- Nothing flows out of a cell, if each flux is that of the same vector. -/
theorem outwardFlux_eq_zero (hids : ks.contains .faceIds = true) {level : Level}
    (hflux : ∀ k face, (m.cellFaces.getD c [])[k]? = some face →
      (CellCache.ofTables m.toMeshTables c ks).faceFlux q k t level =
        .ok ((m.face face).measure * (m.face face).unit.dot b)) :
    (CellCache.ofTables m.toMeshTables c ks).outwardFlux q t level = .ok 0 := by
  have htrace : Tensor.trace (⟨0, 0, 0⟩ : Tensor ℝ) = 0 := by simp [Tensor.trace]
  have hout := outwardFlux_eq_ok (A := ⟨0, 0, 0⟩) (b := b) hm hc hids fun k face hk => by
    rw [hflux k face hk, Tensor.zero_apply_add]
  rwa [htrace, zero_mul] at hout

/-- **The discrete divergence theorem.**  At every level but the lowest the flux of an affine
field out of a regular cell is its divergence times the volume; that of a constant is zero, whether
it is given as a constant or as a function, and for functions also at the lowest level. -/
theorem divergence_theorem (capabilities : List Capability)
    (hfaces : (CapabilitySet.ofList capabilities).contains .faceGeometry = true) :
    ∃ (cm : CellCache ℝ) (volume : ℝ),
      CellCache.build m.toMeshTables c (.ofList capabilities) = .ok cm ∧
      fetch m.cellVolumes c = .ok volume ∧
      (∀ (q : Quantity ℝ) (f : SpaceTimeFunction ℝ) (t : ℝ) (A : Tensor ℝ) (b : Vec3 ℝ)
        (level : Level), (CapabilitySet.ofList capabilities).contains .faceTriangles = true →
          q.source = .function f → (∀ x, f.components t x = (A.apply x + b).toList) →
          level = .barySubdiv ∨ level = .higher ∨ level = .highest →
            cm.outwardFlux q t level = .ok (A.trace * volume)) ∧
      (∀ (q : Quantity ℝ) (f : SpaceTimeFunction ℝ) (t : ℝ) (u : Vec3 ℝ), q.source = .function f →
        (∀ x, f.components t x = u.toList) → cm.outwardFlux q t .bary = .ok 0) ∧
      ∀ (q : Quantity ℝ) (t : ℝ) (u : Vec3 ℝ) (level : Level),
        q.source = .constant (.vector u) → cm.outwardFlux q t level = .ok 0 := by
  have hcons := PolyhedralMesh.consistent_of_build hm hc.lt
  have hclosed := CapabilitySet.closed_ofList capabilities
  have hids : (CapabilitySet.ofList capabilities).contains .faceIds = true :=
    hclosed _ hfaces _ (by decide)
  have hreq : (CellCache.ofTables m.toMeshTables c (.ofList capabilities)).requires
      [.faceGeometry] = .ok () :=
    CellCache.requires_eq_ok.2 fun j hj => List.mem_singleton.1 hj ▸ hfaces
  refine ⟨_, m.cellVolumes.getD c 0, CellCache.build_eq_ofTables hcons hclosed,
    fetch_getD hcons.volume_lt 0, ?_, ?_, ?_⟩
  · intro q f t A b level hneeds hq hf hlevel
    have hne : level ≠ .bary := by
      rintro rfl
      simp at hlevel
    exact outwardFlux_eq_ok hm hc hids fun k face hk =>
      faceFlux_affine hm hc hclosed hneeds hk hq hf hne
  · intro q f t u hq hu
    refine outwardFlux_eq_zero hm hc hids (b := u) fun k face hk => ?_
    have hfetch := CellCache.fetch_faces_ofTables hfaces hk
    have hfield : f.IsField t ⟨0, 0, 0⟩ u := fun x => by rw [hu x, Tensor.zero_apply_add]
    have hss : (CellCache.ofTables m.toMeshTables c (.ofList capabilities)).fluxSamples k f.dim
        .bary = .ok [⟨(m.face face).measure, m.cellCenters.getD c 0⟩] := by
      simp only [CellCache.fluxSamples, hreq, hfetch, liftM_ok, ok_bind, pure_eq_ok]
      rfl
    rw [CellCache.faceFlux, hq]
    refine (if_pos hfield.dim_eq).trans ?_
    rw [hfield.functionFlux_eq_ok hss hfetch, List.map_singleton, List.sum_singleton,
      Tensor.zero_apply_add]
  · intro q t u level hq
    refine outwardFlux_eq_zero hm hc hids (b := u) fun k face hk => ?_
    rw [CellCache.faceFlux, hq]
    show (liftM (CellCache.constantFlux _ k u) : Except Fault ℝ) = _
    rw [CellCache.constantFlux, hreq, ok_bind, CellCache.fetch_faces_ofTables hfaces hk]
    rfl

end RegularCell

/-- What flows out of the unit tetrahedron in a field of divergence six. -/
theorem divergence_theorem_unitMesh :
    ∃ (cm : CellCache ℝ) (volume : ℝ),
      CellCache.build Tetrahedron.unitMesh.toMeshTables 0 (.ofList [.faceTriangles]) = .ok cm ∧
      fetch Tetrahedron.unitMesh.cellVolumes 0 = .ok volume ∧
      cm.outwardFlux ⟨.cell, .function ⟨3, fun t x => #v[x.x + t, 2 * x.y, 3 * x.z]⟩⟩ 5 .highest =
        .ok (6 * volume) := by
  obtain ⟨cm, volume, hbuild, hvolume, hexact, -, -⟩ := RegularCell.divergence_theorem
    Tetrahedron.build_unitMesh Tetrahedron.regularCell_unitMesh [.faceTriangles] rfl
  refine ⟨cm, volume, hbuild, hvolume, ?_⟩
  have htrace : Tensor.trace (⟨⟨1, 0, 0⟩, ⟨0, 2, 0⟩, ⟨0, 0, 3⟩⟩ : Tensor ℝ) = 6 := by
    norm_num [Tensor.trace]
  rw [← htrace]
  refine hexact _ _ _ _ ⟨5, 0, 0⟩ _ rfl rfl (fun x => ?_) (.inr (.inr rfl))
  simp [SpaceTimeFunction.components, Tensor.apply, Vec3.dot, Vec3.toList]

end Polyfield
