import Polyfield.Proofs.SharedFaces

/-!
# Fluxes of tensors

The flux of a tensor through a face is made of the fluxes of its rows, and a constant tensor has
the flux of the function that returns its components as they are written to a buffer.

* `Tensor.row`, `SpaceTimeFunction.row` : the rows of a tensor, and of a function of nine
  components;
* `CellCache.constantFlux_row`, `CellCache.functionFlux_row` : component by component, the flux of
  a tensor is that of its rows, and both are refused alike;
* `RegularFace.sum_fluxSamples_weight` : at every level the samples on a planar convex face add up
  to its area;
* `RegularFace.functionTensorFlux_constant` : so functions that return one tensor everywhere have
  the flux of the constant;
* `CellCache.tensor_flux_rows` : all of this for caches with all capabilities.
-/

namespace Polyfield

/-- A result that cannot be refused may be changed before or after it is used as one that can. -/
theorem liftM_map {α β : Type} (g : α → β) (x : Except Breach α) :
    (liftM (x.map g) : Except Fault β) = (liftM x : Except Fault α).map g := by
  cases x <;> rfl

/-! ## Rows -/

/-- The rows of a tensor by their numbers. -/
def Tensor.row {R : Type} (A : Tensor R) : Fin 3 → Vec3 R
  | 0 => A.row0
  | 1 => A.row1
  | 2 => A.row2

theorem Tensor.component_apply {R : Type} [Scalar R] (A : Tensor R) (v : Vec3 R) (i : Fin 3) :
    (A.apply v).component i = (A.row i).dot v := by
  fin_cases i <;> rfl

namespace SpaceTimeFunction

section

variable {R : Type}

/-- The function of three components that is one row of a function of nine. -/
def row (f : SpaceTimeFunction R) (h : f.dim = 9) (i : Fin 3) : SpaceTimeFunction R where
  dim := 3
  value t x := Vector.ofFn fun j : Fin 3 => (f.value t x).get ⟨3 * i + j, by omega⟩

/-- The components of a row are three of the nine in a row. -/
theorem components_row {f : SpaceTimeFunction R} (h : f.dim = 9) (i : Fin 3) (t : R) (x : Vec3 R) :
    (f.row h i).components t x = ((f.components t x).drop (3 * i)).take 3 := by
  refine List.ext_getElem ?_ fun j hj _ => ?_
  · simp only [length_components, List.length_take, List.length_drop, h, row]
    omega
  · simp [components, row, Vector.get]

variable [Scalar R] {f : SpaceTimeFunction R}

theorem vector_row (h : f.dim = 9) (i : Fin 3) (t : R) (x : Vec3 R) :
    (f.row h i).vector t x = (f.tensor t x).row i := by
  rw [vector, components_row, components_eq_tensor h]
  fin_cases i <;> rfl

end

end SpaceTimeFunction

/-- A source of vectors is one row of a source of tensors. -/
inductive Source.IsRow {R : Type} (i : Fin 3) : Source R → Source R → Prop
  | constant (A : Tensor R) : IsRow i (.constant (.vector (A.row i))) (.constant (.tensor A))
  | function {f : SpaceTimeFunction R} (hdim : f.dim = 9) :
    IsRow i (.function (f.row hdim i)) (.function f)

namespace CellCache

/-! ## Row by row -/

section Samples

variable {R : Type} [Scalar R] {cm : CellCache R} {k : Nat} {t : R} {level : Level}

/-- The points of a flux do not depend on the number of components. -/
theorem fluxSamples_congr_dim (cm : CellCache R) (k : Nat) (level : Level) {d d' : Nat}
    (hd : d = 1 ∨ d = 3 ∨ d = 9) (hd' : d' = 1 ∨ d' = 3 ∨ d' = 9) :
    cm.fluxSamples k d level = cm.fluxSamples k d' level := by
  cases level with
  | bary => rfl
  | barySubdiv => rfl
  | higher =>
    simp only [fluxSamples, SimplexRule.triangleFor_eq_ok _ hd, SimplexRule.triangleFor_eq_ok _ hd']
  | highest =>
    simp only [fluxSamples, SimplexRule.triangleFor_eq_ok _ hd, SimplexRule.triangleFor_eq_ok _ hd']

end Samples

section Rows

variable {cm : CellCache ℝ} {k : Nat} {t : ℝ} {level : Level} {i : Fin 3}

/-- The flux of a row of a constant tensor is a component of the flux of the tensor. -/
theorem constantFlux_row (cm : CellCache ℝ) (k : Nat) (A : Tensor ℝ) (i : Fin 3) :
    cm.constantFlux k (A.row i) = (cm.constantTensorFlux k A).map (·.component i) := by
  rw [constantFlux, constantTensorFlux]
  cases cm.requires [.faceGeometry] with
  | error b => rfl
  | ok _ =>
    cases fetch cm.faces k with
    | error b => rfl
    | ok face =>
      show Except.ok _ = Except.ok ((face.measure • A.apply face.unit).component i)
      rw [Vec3.component_smul, Tensor.component_apply, Vec3.dot_comm]

/-- The flux of a row of a tensor function is a component of the flux of the function. -/
theorem functionFlux_row {f : SpaceTimeFunction ℝ} (hdim : f.dim = 9) :
    cm.functionFlux k t (f.row hdim i) level =
      (cm.functionTensorFlux k t f level).map (·.component i) := by
  have hsamples : cm.fluxSamples k (f.row hdim i).dim level = cm.fluxSamples k f.dim level :=
    cm.fluxSamples_congr_dim k level (.inr (.inl rfl)) (.inr (.inr hdim))
  cases hss : cm.fluxSamples k f.dim level with
  | error fault => rw [functionFlux, functionTensorFlux, hsamples, hss]; rfl
  | ok ss =>
    cases hface : fetch cm.faces k with
    | error b => rw [functionFlux, functionTensorFlux, hsamples, hss, hface]; rfl
    | ok face =>
      rw [functionFlux_eq_foldl rfl t (hsamples.trans hss) hface,
        functionTensorFlux_eq_foldl hdim hss hface, ← Vec3.component_zero i]
      -- taking a component commutes with the loop over the samples
      refine congrArg Except.ok (List.foldl_hom (fun v : Vec3 ℝ => v.component i) fun flux s => ?_)
      rw [f.vector_row hdim, Vec3.component_add, Vec3.component_smul, Tensor.component_apply,
        Vec3.dot_comm]

/-- **The flux of a row is a component of the flux of the tensor**, and is refused if that is. -/
theorem faceFlux_row {q r : Quantity ℝ} (h : r.source.IsRow i q.source) :
    cm.faceFlux r k t level = (cm.tensorFlux q k t level).map (·.component i) := by
  unfold faceFlux tensorFlux
  generalize q.source = tensors, r.source = vectors at h
  cases h with
  | constant A =>
    show (liftM (cm.constantFlux k (A.row i)) : Except Fault ℝ) = _
    rw [constantFlux_row, liftM_map]
  | function hdim =>
    simp only [if_pos hdim]
    exact (if_pos rfl).trans (functionFlux_row hdim)

end Rows

end CellCache

/-! ## Constant tensors -/

namespace SpaceTimeFunction

variable {f : SpaceTimeFunction ℝ} {t : ℝ} {x : Vec3 ℝ} {A : Tensor ℝ}

theorem dim_eq_of_tensor (h : f.components t x = A.toList) : f.dim = 9 := by
  rw [← f.length_components t x, h, Tensor.length_toList]

theorem tensor_eq (h : f.components t x = A.toList) : f.tensor t x = A := by
  rw [tensor, h]
  rfl

end SpaceTimeFunction

namespace RegularFace

open CellCache

variable {cells : List (List Loop)} {vertices : List (Vec3 ℝ)} {m : PolyhedralMesh ℝ}
  {c k f : Nat} (hface : RegularFace cells m f)
  (hm : PolyhedralMesh.build vertices cells = .ok m) (hc : c < m.cellCount)
  (hk : (m.cellFaces.getD c [])[k]? = some f)

include hface hm hc hk

/-- At every level the samples of a flux add up to the area of the face. -/
theorem sum_fluxSamples_weight {dim : Nat} (hdim : dim = 1 ∨ dim = 3 ∨ dim = 9) (level : Level) :
    ∃ ss, (ofTables m.toMeshTables c .all).fluxSamples k dim level = .ok ss ∧
      (ss.map (·.weight)).sum = (m.face f).measure := by
  have hneeds := CapabilitySet.contains_all .faceTriangles
  by_cases hlevel : level = .bary
  · obtain ⟨hreq, -, hfetch, -⟩ := fluxReads_ofTables (PolyhedralMesh.consistent_of_build hm hc)
      CapabilitySet.closed_all hneeds hk
    refine ⟨[⟨(m.face f).measure, (ofTables m.toMeshTables c .all).center⟩], ?_, by simp⟩
    simp only [hlevel, fluxSamples, hreq, hfetch, liftM_ok, ok_bind, pure_eq_ok]
  · obtain ⟨ss, hss, hweight, -⟩ :=
      hface.exists_fluxSamples hm hc CapabilitySet.closed_all hneeds hk hdim hlevel
    exact ⟨ss, hss, hweight⟩

/-- **A function that returns one tensor everywhere has the flux of the constant.** -/
theorem functionTensorFlux_constant {func : SpaceTimeFunction ℝ} {t : ℝ} {A : Tensor ℝ}
    (hfunc : ∀ x, func.components t x = A.toList) (level : Level) :
    (ofTables m.toMeshTables c .all).functionTensorFlux k t func level =
      .ok ((m.face f).measure • A.apply (m.face f).unit) := by
  have hdim := SpaceTimeFunction.dim_eq_of_tensor (hfunc 0)
  obtain ⟨ss, hss, hweight⟩ := hface.sum_fluxSamples_weight hm hc hk (.inr (.inr hdim)) level
  obtain ⟨-, -, hfetch, -⟩ := splitReads_ofTables (PolyhedralMesh.consistent_of_build hm hc) hk
  rw [functionTensorFlux_eq_foldl hdim hss hfetch, foldl_add_eq_sum]
  simp only [fun x => SpaceTimeFunction.tensor_eq (hfunc x), sum_map_smul, hweight]

/-- A constant tensor, as such and by a function that returns it. -/
theorem tensorFlux_constant {q : Quantity ℝ} {A : Tensor ℝ} {t : ℝ}
    (hq : q.source = .constant (.tensor A) ∨ ∃ func, q.source = .function func ∧
      ∀ x, func.components t x = A.toList) (level : Level) :
    (ofTables m.toMeshTables c .all).tensorFlux q k t level =
      .ok ((m.face f).measure • A.apply (m.face f).unit) := by
  rcases hq with hq | ⟨func, hq, hfunc⟩
  · obtain ⟨hreq, -, hfetch, -⟩ :=
      splitReads_ofTables (PolyhedralMesh.consistent_of_build hm hc) hk
    simp only [tensorFlux, hq, constantTensorFlux, hreq, hfetch, ok_bind]
    rfl
  · have hdim := SpaceTimeFunction.dim_eq_of_tensor (hfunc 0)
    simp only [tensorFlux, hq, if_pos hdim]
    exact hface.functionTensorFlux_constant hm hc hk hfunc level

end RegularFace

/-- **The flux of a tensor is the flux of each row.**  On a cache with all capabilities the flux of
a constant or a function of nine components exists for the faces of the cell, and at every level
its components are the fluxes of the rows.  A constant tensor written to a buffer and returned from
there by a function has the flux of the constant on planar convex faces. -/
theorem CellCache.tensor_flux_rows {m : MeshTables ℝ} {c : Nat} {cm : CellCache ℝ}
    (hcm : build m c .all = .ok cm) (t : ℝ) (level : Level) :
    (∀ (q r : Quantity ℝ) (i : Fin 3) (k : Nat), r.source.IsRow i q.source →
      cm.faceFlux r k t level = (cm.tensorFlux q k t level).map (·.component i) ∧
      (k < cm.faceCount → ∃ flux, cm.tensorFlux q k t level = .ok flux)) ∧
    ∀ (vertices : List (Vec3 ℝ)) (cells : List (List Loop)) (mesh : PolyhedralMesh ℝ),
      PolyhedralMesh.build vertices cells = .ok mesh → m = mesh.toMeshTables →
      ∀ k f : Nat, cm.faceIds[k]? = some f → RegularFace cells mesh f →
      ∀ (A : Tensor ℝ) (buf : Buffer ℝ), 9 ≤ buf.length →
        ∃ (out : Buffer ℝ) (flux : Vec3 ℝ), (Value.tensor A).writeTo buf = .ok out ∧
          (∀ q : Quantity ℝ, q.source = .constant (.tensor A) →
            cm.tensorFlux q k t level = .ok flux) ∧
          ∀ (q : Quantity ℝ) (func : SpaceTimeFunction ℝ), q.source = .function func →
            (∀ x, func.components t x = out.take 9) → cm.tensorFlux q k t level = .ok flux := by
  obtain ⟨hcons, heq⟩ := build_all_eq_ok.1 hcm
  constructor
  · intro q r i k hrow
    refine ⟨faceFlux_row hrow, fun hk => ?_⟩
    rw [← heq] at hk ⊢
    rw [faceCount_ofTables (CapabilitySet.contains_all _)] at hk
    have hmeans : q.source.HasMeans ∧ q.dim = 9 := by
      unfold Quantity.dim
      generalize q.source = tensors, r.source = vectors at hrow
      cases hrow with
      | constant A => exact ⟨trivial, rfl⟩
      | function hdim => exact ⟨.inr (.inr hdim), hdim⟩
    exact exists_tensorFlux hcons (List.getElem?_eq_getElem hk) hmeans.1 hmeans.2 t level
  · rintro vertices cells mesh hmesh rfl k f hk hface A buf hbuf
    have hc : c < mesh.cellCount := hcons.volume_lt
    rw [build_eq_ofTables (PolyhedralMesh.consistent_of_build hmesh hc)
      CapabilitySet.closed_all] at hcm
    obtain rfl := Except.ok.inj hcm
    rw [faceIds_ofTables (CapabilitySet.contains_all _)] at hk
    refine ⟨_, _, Value.writeTo_eq_ok hbuf,
      fun q hq => hface.tensorFlux_constant hmesh hc hk (.inl hq) level,
      fun q func hq hfunc => ?_⟩
    have hreturns : ∀ x, func.components t x = A.toList := fun x =>
      (hfunc x).trans (List.take_left' A.length_toList)
    exact hface.tensorFlux_constant hmesh hc hk (.inr ⟨func, hq, hreturns⟩) level

/-- A tensor that is not symmetric, and the same written to a buffer with one entry more and
returned from there, at a face of the unit tetrahedron. -/
theorem tensor_flux_rows_unitMesh :
    let A : Tensor ℝ := ⟨⟨1, 2, 3⟩, ⟨4, 5, 6⟩, ⟨7, 8, 9⟩⟩
    let func : SpaceTimeFunction ℝ := ⟨9, fun _ _ => #v[1, 2, 3, 4, 5, 6, 7, 8, 9]⟩
    ∃ (cm : CellCache ℝ) (k : Nat) (flux : Vec3 ℝ),
      CellCache.build Tetrahedron.unitMesh.toMeshTables 0 .all = .ok cm ∧
      cm.faceIds[k]? = some 0 ∧
      (Value.tensor A).writeTo (List.replicate 10 0) = .ok [1, 2, 3, 4, 5, 6, 7, 8, 9, 0] ∧
      cm.tensorFlux ⟨.face, .constant (.tensor A)⟩ k 5 .highest = .ok flux ∧
      cm.tensorFlux ⟨.cell, .function func⟩ k 5 .highest = .ok flux ∧
      cm.faceFlux ⟨.face, .constant (.vector ⟨4, 5, 6⟩)⟩ k 5 .highest = .ok flux.y ∧
      cm.faceFlux ⟨.cell, .function (func.row rfl 2)⟩ k 5 .highest = .ok flux.z := by
  intro A func
  have hm := Tetrahedron.build_unitMesh
  have hcell := Tetrahedron.regularCell_unitMesh
  have hcons := PolyhedralMesh.consistent_of_build hm hcell.lt
  have hcm := CellCache.build_eq_ofTables hcons CapabilitySet.closed_all
  have hf : 0 ∈ Tetrahedron.unitMesh.cellFaces.getD 0 [] := Tetrahedron.mem_cellFaces.2 (by simp)
  set cm := CellCache.ofTables Tetrahedron.unitMesh.toMeshTables 0 .all with hcmdef
  obtain ⟨k, hk⟩ : ∃ k : Nat, cm.faceIds[k]? = some 0 := by
    rw [hcmdef, CellCache.faceIds_ofTables (CapabilitySet.contains_all _)]
    exact ⟨_, List.getElem?_idxOf hf⟩
  obtain ⟨hrows, hconstants⟩ := CellCache.tensor_flux_rows hcm 5 .highest
  obtain ⟨out, flux, hout, hvalue, hfunction⟩ := hconstants _ _ _ hm rfl k 0 hk (hcell.face hf) A
    (List.replicate 10 0) (by simp)
  have hwritten : (Value.tensor A).writeTo (List.replicate 10 0) =
      .ok [1, 2, 3, 4, 5, 6, 7, 8, 9, 0] := rfl
  obtain rfl := Except.ok.inj (hwritten.symm.trans hout)
  have hreturned := hfunction ⟨.cell, .function func⟩ func rfl fun _ => rfl
  refine ⟨cm, k, flux, hcm, hk, hwritten, hvalue _ rfl, hreturned, ?_, ?_⟩
  · have hrow := (hrows ⟨.face, .constant (.tensor A)⟩ ⟨.face, .constant (.vector (A.row 1))⟩ 1 k
      (.constant A)).1
    exact hrow.trans (congrArg (·.map (·.component 1)) (hvalue _ rfl))
  · have hrow := (hrows ⟨.cell, .function func⟩ ⟨.cell, .function (func.row rfl 2)⟩ 2 k
      (.function rfl)).1
    exact hrow.trans (congrArg (·.map (·.component 2)) hreturned)

end Polyfield
