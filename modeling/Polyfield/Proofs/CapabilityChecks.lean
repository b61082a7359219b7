import Polyfield.Proofs.CellMeans
import Polyfield.Proofs.PartialCaches
import Polyfield.Proofs.TetrahedronCell

/-!
# Capability checks

The routines on a cell check that the cache has what they read.  So a call on a cache that was built
with some capabilities finds one of them missing, or is the same as on the full cache of the cell.

There is one exception.  The means of a constant are written for as many faces as the cache lists,
and for the cell, without a check: a cache without the faces makes one mean instead of all.

* `CellCall.agrees_run` : the calls but that one, each by a lemma that follows its steps;
* `CellCall.capabilities` : what every call does, for the cells of a mesh;
* `CellCall.unchecked_faces` : the exception on a tetrahedron.
-/

namespace Polyfield

variable {R : Type} [Scalar R]

namespace CellCache

/-! ## Reconstruction and values -/

section Routines

variable {cm full : CellCache R} (h : cm.PartOf full)

include h

theorem agrees_averageVertices (values : List R) (stride : Nat) (buf : Buffer R) :
    AgreesUpTo Breach.IsLack (cm.averageVertices values stride buf)
      (full.averageVertices values stride buf) := by
  unfold averageVertices
  refine (h.requires _).bind fun _ hok => ?_
  have hk : cm.has .vertexGeometry = true := requires_eq_ok.1 hok _ (by simp)
  rw [h.vertexIds (h.has_of_mem_closure hk (by decide)), h.vertexWeights hk]
  exact .refl _

theorem agrees_writeVectorOfFluxes (fluxes : List R) (buf : Buffer R) :
    AgreesUpTo Breach.IsLack (cm.writeVectorOfFluxes fluxes buf)
      (full.writeVectorOfFluxes fluxes buf) := by
  unfold writeVectorOfFluxes vectorOfFluxes
  refine (h.requires _).bind fun _ hok => ?_
  rw [h.edges (requires_eq_ok.1 hok _ (by simp)), h.volume]
  exact .refl _

omit [Scalar R] in
theorem functionAtCenter_eq (f : SpaceTimeFunction R) (t : R) :
    cm.functionAtCenter f t = full.functionAtCenter f t := by
  funext buf
  unfold functionAtCenter
  rw [h.center]

theorem agrees_arrayValue (a : ValueArray R) (buf : Buffer R) :
    (cm.arrayValue a).Agrees (full.arrayValue a) buf := by
  unfold arrayValue
  rw [h.cell]
  cases a.location with
  | cell => exact .refl _ _
  | vertex => exact .of_ofUpdate (agrees_averageVertices h _ _ _)
  | dualFaceByCell =>
    exact .of_ofUpdate ((AgreesUpTo.refl _).bind fun _ _ => agrees_writeVectorOfFluxes h _ _)
  | face => exact .refl _ _
  | boundaryFace => exact .refl _ _

theorem agrees_fieldValue (f : ValueField R) (buf : Buffer R) :
    (cm.fieldValue f).Agrees (full.fieldValue f) buf := by
  unfold fieldValue
  rw [h.cell]
  cases f.location with
  | cell => exact .refl _ _
  | vertex => exact .of_ofUpdate (agrees_averageVertices h _ _ _)
  | dualFaceByCell => exact .refl _ _
  | face => exact .refl _ _
  | boundaryFace => exact .refl _ _

theorem agrees_value (q : Quantity R) (t : R) (buf : Buffer R) :
    (cm.value q t).Agrees (full.value q t) buf := by
  unfold value
  cases q.source with
  | constant v => exact .refl _ _
  | function f =>
    show (Fill.ofUpdate (cm.functionAtCenter f t)).Agrees _ buf
    rw [functionAtCenter_eq h]
    exact .refl _ _
  | array a => exact agrees_arrayValue h a buf
  | field f => exact agrees_fieldValue h f buf

theorem agrees_arrayAtPoints (a : ValueArray R) (n : Nat) (buf : Buffer R) :
    (cm.arrayAtPoints a n).Agrees (full.arrayAtPoints a n) buf := by
  unfold arrayAtPoints
  refine .ite (fun _ => .refl _ _) fun _ => ?_
  exact (Fill.Agrees.onFirst (agrees_arrayValue h a) buf).bind fun _ _ _ => .refl _ _

theorem agrees_fieldAtPoints (f : ValueField R) (n : Nat) (buf : Buffer R) :
    (cm.fieldAtPoints f n).Agrees (full.fieldAtPoints f n) buf := by
  unfold fieldAtPoints
  refine .ite (fun _ => .refl _ _) fun _ => ?_
  exact (Fill.Agrees.onFirst (agrees_fieldValue h f) buf).bind fun _ _ _ => .refl _ _

theorem agrees_valueAtPoints (q : Quantity R) (points : List (Vec3 R)) (t : R) (buf : Buffer R) :
    (cm.valueAtPoints q points t).Agrees (full.valueAtPoints q points t) buf := by
  unfold valueAtPoints
  cases q.source with
  | constant v => exact .refl _ _
  | function f => exact .refl _ _
  | array a => exact agrees_arrayAtPoints h a _ buf
  | field f => exact agrees_fieldAtPoints h f _ buf

theorem agrees_vectorArrayAtPoints (a : ValueArray R) (n : Nat) (buf : Buffer R) :
    (cm.vectorArrayAtPoints a n).Agrees (full.vectorArrayAtPoints a n) buf := by
  unfold vectorArrayAtPoints
  exact .ite (fun _ => .refl _ _) fun _ => agrees_arrayAtPoints h a n buf

theorem agrees_vectorFieldAtPoints (f : ValueField R) (n : Nat) (buf : Buffer R) :
    (cm.vectorFieldAtPoints f n).Agrees (full.vectorFieldAtPoints f n) buf := by
  unfold vectorFieldAtPoints
  exact .ite (fun _ => .refl _ _) fun _ => agrees_fieldAtPoints h f n buf

/-! ## Integrals and averages -/

variable (t : R) (f : SpaceTimeFunction R)

theorem agrees_integrateFace (face : Nat) (rule : SimplexRule R 3) (buf : Buffer R) :
    AgreesUpTo Breach.IsLack (cm.integrateFace face t f rule buf)
      (full.integrateFace face t f rule buf) := by
  unfold integrateFace
  refine (h.requires _).bind fun _ hok => ?_
  obtain ⟨_, _, _, rfl, -⟩ := h.exists_eq_with (requires_eq_ok.1 hok _ (by decide))
  exact .of_eq rfl

theorem agrees_integrateCell (rule : SimplexRule R 4) (buf : Buffer R) :
    AgreesUpTo Breach.IsLack (cm.integrateCell t f rule buf)
      (full.integrateCell t f rule buf) := by
  unfold integrateCell
  refine (h.requires _).bind fun _ hok => ?_
  obtain ⟨_, _, heights, rfl, hheights⟩ :=
    h.exists_eq_with (requires_eq_ok.1 hok _ (by decide))
  obtain rfl := hheights (requires_eq_ok.1 hok _ (by decide))
  exact .of_eq rfl

theorem agrees_integrateCellAndFaces (tetraRule : SimplexRule R 4)
    (triangleRule : SimplexRule R 3) (cellBuf faceBuf : Buffer R) : AgreesUpTo Breach.IsLack
      (cm.integrateCellAndFaces t f tetraRule triangleRule cellBuf faceBuf)
      (full.integrateCellAndFaces t f tetraRule triangleRule cellBuf faceBuf) := by
  unfold integrateCellAndFaces
  refine (h.requires _).bind fun _ hok => ?_
  obtain ⟨_, _, heights, rfl, hheights⟩ :=
    h.exists_eq_with (requires_eq_ok.1 hok _ (by decide))
  obtain rfl := hheights (requires_eq_ok.1 hok _ (by decide))
  exact .of_eq rfl

/-- Where the integral over a face has been computed, its area is there. -/
theorem agrees_averageFunctionOnFace (face : Nat) (rule : SimplexRule R 3) (slot : Buffer R) :
    AgreesUpTo Breach.IsLack (cm.averageFunctionOnFace face t f rule slot)
      (full.averageFunctionOnFace face t f rule slot) := by
  unfold averageFunctionOnFace
  refine (agrees_integrateFace h t f face rule _).bind fun out hout => ?_
  have hneeds := requires_eq_ok.1 (unit_bind_eq_ok.1 hout).1
  rw [h.faces (hneeds _ (by decide))]
  exact .refl _

theorem agrees_averageFunctionOnCell (rule : SimplexRule R 4) (slot : Buffer R) :
    AgreesUpTo Breach.IsLack (cm.averageFunctionOnCell t f rule slot)
      (full.averageFunctionOnCell t f rule slot) := by
  unfold averageFunctionOnCell
  rw [h.volume]
  exact (agrees_integrateCell h t f rule _).bind fun _ _ => .refl _

theorem agrees_averageFunctionOnAll (hk : cm.has .faceGeometry = true)
    (tetraRule : SimplexRule R 4) (triangleRule : SimplexRule R 3) (slot : Buffer R) :
    AgreesUpTo Breach.IsLack (cm.averageFunctionOnAll t f tetraRule triangleRule slot)
      (full.averageFunctionOnAll t f tetraRule triangleRule slot) := by
  unfold averageFunctionOnAll
  rw [h.faceCount (h.has_of_mem_closure hk (by decide)), h.faces hk, h.volume]
  exact (agrees_integrateCellAndFaces h t f _ _ _ _).bind fun _ _ => .refl _

theorem agrees_faceAverage (q : Quantity R) (face : Nat) (level : Level) (buf : Buffer R) :
    (cm.faceAverage q face t level).Agrees (full.faceAverage q face t level) buf := by
  unfold faceAverage
  cases q.source with
  | constant v => exact .refl _ _
  | function f =>
    refine (Fill.Agrees.refl _ _).bind fun rule _ _ => .of_ofUpdate ?_
    exact AgreesUpTo.updateFirst (agrees_averageFunctionOnFace h t f face rule) _
  | array a => exact .refl _ _
  | field f => exact .refl _ _

theorem agrees_cellAverage (q : Quantity R) (level : Level) (buf : Buffer R) :
    (cm.cellAverage q t level).Agrees (full.cellAverage q t level) buf := by
  unfold cellAverage
  cases q.source with
  | constant v => exact .refl _ _
  | function f =>
    refine (Fill.Agrees.refl _ _).bind fun rule _ _ => .of_ofUpdate ?_
    exact AgreesUpTo.updateFirst (agrees_averageFunctionOnCell h t f rule) _
  | array a => exact .refl _ _
  | field f => exact .refl _ _

/-- The means of a constant are written for the faces that a cache lists, so the faces have to be
there. -/
theorem agrees_allAverages (q : Quantity R) (level : Level) (buf : Buffer R)
    (hfaces : q.kind = .constant → cm.has .faceIds = true) :
    (cm.allAverages q t level).Agrees (full.allAverages q t level) buf := by
  unfold allAverages
  unfold Quantity.kind at hfaces
  cases hq : q.source with
  | constant v =>
    rw [h.faceCount (hfaces (by rw [hq]; rfl))]
    exact .refl _ _
  | function f =>
    refine (Fill.Agrees.refl _ _).bind fun tetraRule _ _ => (Fill.Agrees.refl _ _).bind
      fun triangleRule _ _ => .of_ofUpdate ?_
    refine (h.requires _).bind fun _ hok => ?_
    have hk : cm.has .faceGeometry = true := requires_eq_ok.1 hok _ (by simp)
    rw [h.faceCount (h.has_of_mem_closure hk (by decide))]
    exact AgreesUpTo.updateFirst (agrees_averageFunctionOnAll h t f hk tetraRule triangleRule) _
  | array a => exact .refl _ _
  | field f => exact .refl _ _

/-! ## Fluxes -/

theorem agrees_constantFlux (face : Nat) (u : Vec3 R) :
    AgreesUpTo Breach.IsLack (cm.constantFlux face u) (full.constantFlux face u) := by
  unfold constantFlux
  refine (h.requires _).bind fun _ hok => ?_
  rw [h.faces (requires_eq_ok.1 hok _ (by simp))]
  exact .refl _

theorem agrees_constantTensorFlux (face : Nat) (m : Tensor R) :
    AgreesUpTo Breach.IsLack (cm.constantTensorFlux face m) (full.constantTensorFlux face m) := by
  unfold constantTensorFlux
  refine (h.requires _).bind fun _ hok => ?_
  rw [h.faces (requires_eq_ok.1 hok _ (by simp))]
  exact .refl _

omit [Scalar R] in
theorem centerFan_eq (hk : cm.has .faceTriangles = true) (face : Nat) :
    cm.centerFan face = full.centerFan face := by
  obtain ⟨_, _, _, rfl, -⟩ := h.exists_eq_with hk
  rfl

omit [Scalar R] in
/-- Behind a check for the triangles of a face. -/
theorem agrees_withFan {α : Type} {x y : Except Fault α}
    (hxy : cm.has .faceTriangles = true → x = y) : AgreesUpTo Fault.IsLack
      (do
        cm.requires fanNeeds
        x)
      (do
        full.requires fanNeeds
        y) := by
  refine (h.requires _).liftM.bind fun _ hok => .of_eq ?_
  exact hxy (requires_eq_ok.1 (liftM_eq_ok.1 hok) _ (by decide))

theorem agrees_fluxSamples (face dim : Nat) (level : Level) :
    AgreesUpTo Fault.IsLack (cm.fluxSamples face dim level)
      (full.fluxSamples face dim level) := by
  unfold fluxSamples
  refine (h.requires _).liftM.bind fun _ hok => ?_
  rw [h.faces (requires_eq_ok.1 (liftM_eq_ok.1 hok) _ (by simp))]
  refine (AgreesUpTo.refl _).bind fun g _ => ?_
  cases level with
  | bary =>
    rw [h.center]
    exact .refl _
  | barySubdiv => exact agrees_withFan h fun hk => by rw [centerFan_eq h hk]
  | higher => exact agrees_withFan h fun hk => by rw [centerFan_eq h hk]
  | highest => exact agrees_withFan h fun hk => by rw [centerFan_eq h hk]

omit h in
/-- Where the samples of a flux have been found, the face is there. -/
theorem has_of_fluxSamples {face dim : Nat} {level : Level} {samples : List (Sample R)}
    (hsamples : cm.fluxSamples face dim level = .ok samples) : cm.has .faceGeometry = true := by
  obtain ⟨hok, -⟩ := unit_bind_eq_ok.1 hsamples
  exact requires_eq_ok.1 (liftM_eq_ok.1 hok) _ (by simp)

theorem agrees_functionFlux (face : Nat) (level : Level) :
    AgreesUpTo Fault.IsLack (cm.functionFlux face t f level)
      (full.functionFlux face t f level) := by
  unfold functionFlux
  refine (agrees_fluxSamples h face f.dim level).bind fun samples hsamples => ?_
  rw [h.faces (has_of_fluxSamples hsamples)]
  exact .refl _

theorem agrees_functionTensorFlux (face : Nat) (level : Level) :
    AgreesUpTo Fault.IsLack (cm.functionTensorFlux face t f level)
      (full.functionTensorFlux face t f level) := by
  unfold functionTensorFlux
  refine (agrees_fluxSamples h face f.dim level).bind fun samples hsamples => ?_
  rw [h.faces (has_of_fluxSamples hsamples)]
  exact .refl _

theorem agrees_faceFlux (q : Quantity R) (face : Nat) (level : Level) :
    AgreesUpTo Fault.IsLack (cm.faceFlux q face t level) (full.faceFlux q face t level) := by
  unfold faceFlux
  cases q.source with
  | constant v =>
    cases v with
    | vector u => exact (agrees_constantFlux h face u).liftM
    | scalar x => exact .refl _
    | tensor m => exact .refl _
  | function f =>
    exact .ite (fun _ => agrees_functionFlux h t f face level) fun _ => .refl _
  | array a => exact .refl _
  | field f => exact .refl _

theorem agrees_tensorFlux (q : Quantity R) (face : Nat) (level : Level) :
    AgreesUpTo Fault.IsLack (cm.tensorFlux q face t level) (full.tensorFlux q face t level) := by
  unfold tensorFlux
  cases q.source with
  | constant v =>
    cases v with
    | tensor m => exact (agrees_constantTensorFlux h face m).liftM
    | scalar x => exact .refl _
    | vector u => exact .refl _
  | function f =>
    exact .ite (fun _ => agrees_functionTensorFlux h t f face level) fun _ => .refl _
  | array a => exact .refl _
  | field f => exact .refl _

theorem agrees_constantVertexFlux (face : Nat) (u : Vec3 R) (buf : Buffer R) :
    AgreesUpTo Breach.IsLack (cm.constantVertexFlux face u buf)
      (full.constantVertexFlux face u buf) := by
  unfold constantVertexFlux
  refine (h.requires _).bind fun _ hok => ?_
  obtain ⟨_, _, _, rfl, -⟩ := h.exists_eq_with (requires_eq_ok.1 hok _ (by decide))
  exact .of_eq rfl

omit [Scalar R] in
/-- Behind a check for the triangles of a face, which is read at once. -/
theorem agrees_withFace {α : Type} (face : Nat) {k k' : EntityGeometry R → Except Breach α}
    (hk : ∀ g, cm.has .faceTriangles = true → AgreesUpTo Breach.IsLack (k g) (k' g)) :
    AgreesUpTo Breach.IsLack
      (do
        cm.requires fanNeeds
        k (← fetch cm.faces face))
      (do
        full.requires fanNeeds
        k' (← fetch full.faces face)) := by
  refine (h.requires _).bind fun _ hok => ?_
  have htriangles : cm.has .faceTriangles = true := requires_eq_ok.1 hok _ (by decide)
  rw [h.faces (h.has_of_mem_closure htriangles (by decide))]
  exact (AgreesUpTo.refl _).bind fun g _ => hk g htriangles

theorem agrees_functionVertexFlux (face : Nat) (level : Level) (buf : Buffer R) :
    (cm.functionVertexFlux face t f level).Agrees (full.functionVertexFlux face t f level) buf := by
  unfold functionVertexFlux
  cases level with
  | bary =>
    refine .of_ofUpdate (agrees_withFace h face fun _ _ => ?_)
    unfold vectorAtCenter
    rw [h.center]
    exact (AgreesUpTo.refl _).bind fun u _ => agrees_constantVertexFlux h face u buf
  | barySubdiv =>
    refine .of_ofUpdate (agrees_withFace h face fun g hk => ?_)
    obtain ⟨_, _, _, rfl, -⟩ := h.exists_eq_with hk
    exact .of_eq rfl
  | higher =>
    refine .of_ofUpdate (agrees_withFace h face fun g hk => ?_)
    obtain ⟨_, _, _, rfl, -⟩ := h.exists_eq_with hk
    exact .of_eq rfl
  | highest =>
    refine Fill.Agrees.bind (.of_ofUpdate ?_) fun _ _ _ => .refl _ _
    exact agrees_withFace h face fun _ _ => .refl _

/-- A buffer with room for all vertices of the cell passes the check of either cache. -/
theorem agrees_vertexFlux (q : Quantity R) (face : Nat) (level : Level) {buf : Buffer R}
    (hbuf : full.vertexCount ≤ buf.length) :
    (cm.vertexFlux q face t level).Agrees (full.vertexFlux q face t level) buf := by
  unfold vertexFlux
  refine Fill.Agrees.bind (.of_ofUpdate (.of_eq ?_)) fun _ out _ => ?_
  · have hle := h.vertexCount_le
    rw [if_neg (by omega), if_neg (by omega)]
  · cases q.source with
    | constant v =>
      cases v with
      | vector u => exact .of_ofUpdate (agrees_constantVertexFlux h face u out)
      | scalar x => exact .refl _ _
      | tensor m => exact .refl _ _
    | function f =>
      exact .ite (fun _ => agrees_functionVertexFlux h t f face level out) fun _ => .refl _ _
    | array a => exact .refl _ _
    | field f => exact .refl _ _

end Routines

end CellCache

/-! ## Calls -/

namespace CellCall

/-- The means of a constant over a cell and over its faces. -/
def IsConstantMeans : CellCall R → Prop
  | allAverages q _ _ => q.kind = .constant
  | _ => False

/-- Room for what is checked at the buffer before the cache is: an entry for each vertex. -/
def HasRoom (full : CellCache R) (buf : Buffer R) : CellCall R → Prop
  | vertexFlux _ _ _ _ => full.vertexCount ≤ buf.length
  | _ => True

open CellCache

/-- **A call on a part of a cache** finds a capability missing, or is the same as on the full cache;
the means of a constant, if the part has the faces. -/
theorem agrees_run {cm full : CellCache R} (h : cm.PartOf full) {call : CellCall R}
    {buf : Buffer R} (hroom : call.HasRoom full buf)
    (hfaces : call.IsConstantMeans → cm.has .faceIds = true) :
    (call.run cm).Agrees (call.run full) buf := by
  cases call with
  | value q t => exact (agrees_value h q t buf).done
  | functionAtCenter f t =>
    show Fill.Agrees (.done (.ofUpdate (cm.functionAtCenter f t))) _ buf
    rw [functionAtCenter_eq h]
    exact .refl _ _
  | arrayValue a => exact (agrees_arrayValue h a buf).done
  | fieldValue f => exact (agrees_fieldValue h f buf).done
  | valueAtPoints q points t => exact (agrees_valueAtPoints h q points t buf).done
  | arrayAtPoints a n => exact (agrees_arrayAtPoints h a n buf).done
  | fieldAtPoints f n => exact (agrees_fieldAtPoints h f n buf).done
  | vectorArrayAtPoints a n => exact (agrees_vectorArrayAtPoints h a n buf).done
  | vectorFieldAtPoints f n => exact (agrees_vectorFieldAtPoints h f n buf).done
  | faceAverage q face t level => exact (agrees_faceAverage h t q face level buf).done
  | cellAverage q t level => exact (agrees_cellAverage h t q level buf).done
  | allAverages q t level => exact (agrees_allAverages h t q level buf hfaces).done
  | averageVertices values stride =>
    exact (Fill.Agrees.of_ofUpdate (agrees_averageVertices h values stride buf)).done
  | writeVectorOfFluxes fluxes =>
    exact (Fill.Agrees.of_ofUpdate (agrees_writeVectorOfFluxes h fluxes buf)).done
  | integrateFace face t f rule =>
    exact (Fill.Agrees.of_ofUpdate (agrees_integrateFace h t f face rule buf)).done
  | integrateCell t f rule =>
    exact (Fill.Agrees.of_ofUpdate (agrees_integrateCell h t f rule buf)).done
  | integrateCellAndFaces t f tetraRule triangleRule cellEntries =>
    refine (Fill.Agrees.of_ofUpdate ?_).done
    exact (agrees_integrateCellAndFaces h t f tetraRule triangleRule _ _).bind
      fun _ _ => .refl _
  | faceFlux q face t level => exact .returning (agrees_faceFlux h t q face level)
  | constantFlux face u => exact .returning (agrees_constantFlux h face u).liftM
  | functionFlux face t f level => exact .returning (agrees_functionFlux h t f face level)
  | tensorFlux q face t level => exact .returning (agrees_tensorFlux h t q face level)
  | vertexFlux q face t level => exact (agrees_vertexFlux h t q face level hroom).done
  | constantVertexFlux face u =>
    exact (Fill.Agrees.of_ofUpdate (agrees_constantVertexFlux h face u buf)).done
  | functionVertexFlux face t f level => exact (agrees_functionVertexFlux h t f face level buf).done

/-- The means of a constant on any cache, as a call. -/
theorem run_allAverages_constant (cm : CellCache R) {q : Quantity R} {v : Value R}
    (hq : q.source = .constant v) (t : R) (level : Level) {buf : Buffer R}
    (hbuf : v.dim * (cm.faceCount + 1) ≤ buf.length) :
    (allAverages q t level).run cm buf =
      .ok .done ((List.replicate (cm.faceCount + 1) v.components).flatten ++
        buf.drop (v.dim * (cm.faceCount + 1))) :=
  Fill.bind_of_run_ok (allAverages_constant cm hq t level hbuf)

/-- Without faces there is one mean. -/
theorem run_allAverages_constant_of_lack {cm : CellCache R} (hcount : cm.faceCount = 0)
    {q : Quantity R} {v : Value R} (hq : q.source = .constant v) (t : R) (level : Level)
    {buf : Buffer R} (hbuf : v.dim ≤ buf.length) :
    (allAverages q t level).run cm buf = .ok .done (v.components ++ buf.drop v.dim) := by
  have hone : v.dim * (cm.faceCount + 1) = v.dim := by rw [hcount, Nat.zero_add, Nat.mul_one]
  rw [run_allAverages_constant cm hq t level (hone.trans_le hbuf), hone, hcount]
  simp

/-- **Capabilities are checked, but for one call.**  On the cache of a cell of a mesh, built with
any capabilities, every call finds one of them missing or does what it does on the full cache.  The
means of a constant do so if the faces are among the capabilities; otherwise one mean is written
where the full cache writes one for each face and one for the cell. -/
theorem capabilities {vertices : List (Vec3 R)} {cells : List (List Loop)} {m : PolyhedralMesh R}
    (hm : PolyhedralMesh.build vertices cells = .ok m) {c : Nat} (hc : c < m.cellCount)
    (ks : List Capability) :
    ∃ cm full, CellCache.build m.toMeshTables c (.ofList ks) = .ok cm ∧
      CellCache.build m.toMeshTables c .all = .ok full ∧
      (∀ (call : CellCall R) (buf : Buffer R), call.HasRoom full buf →
        (call.IsConstantMeans → (CapabilitySet.ofList ks).contains .faceIds = true) →
          (call.run cm).Agrees (call.run full) buf) ∧
      ((CapabilitySet.ofList ks).contains .faceIds = false →
        ∀ (q : Quantity R) (v : Value R) (t : R) (level : Level) (buf : Buffer R),
          q.source = .constant v → v.dim * (full.faceCount + 1) ≤ buf.length →
            (allAverages q t level).run cm buf =
              .ok .done (v.components ++ buf.drop v.dim) ∧
            (allAverages q t level).run full buf =
              .ok .done ((List.replicate (full.faceCount + 1) v.components).flatten ++
                buf.drop (v.dim * (full.faceCount + 1)))) := by
  have hcons := PolyhedralMesh.consistent_of_build hm hc
  have hclosed := CapabilitySet.closed_ofList ks
  have hpart := partOf_ofTables m.toMeshTables c hclosed
  refine ⟨_, _, build_eq_ofTables hcons hclosed,
    build_eq_ofTables hcons CapabilitySet.closed_all, fun call buf => agrees_run hpart,
    fun hlack q v t level buf hq hbuf => ⟨?_, run_allAverages_constant _ hq t level hbuf⟩⟩
  have hcount : (ofTables m.toMeshTables c (.ofList ks)).faceCount = 0 :=
    congrArg List.length (hpart.faceIds_of_lack hlack)
  exact run_allAverages_constant_of_lack hcount hq t level
    ((Nat.le_mul_of_pos_right _ (Nat.succ_pos _)).trans hbuf)

/-- The full cache of the unit tetrahedron lists its four faces. -/
theorem faceCount_unitMesh :
    (ofTables Tetrahedron.unitMesh.toMeshTables 0 .all).faceCount = 4 := by
  rw [faceCount_ofTables (CapabilitySet.contains_all _), Tetrahedron.cellFaces_unitMesh]
  rfl

/-- A tetrahedron with its vertices only: a flux needs the faces, and of the means of the number two
there is one instead of five. -/
theorem capabilities_unitMesh :
    ∃ cm full,
      CellCache.build Tetrahedron.unitMesh.toMeshTables 0 (.ofList [.vertexIds]) = .ok cm ∧
      CellCache.build Tetrahedron.unitMesh.toMeshTables 0 .all = .ok full ∧
      ((constantFlux 0 ⟨1, 2, 3⟩).run cm).Agrees ((constantFlux 0 ⟨1, 2, 3⟩).run full) [] ∧
      (allAverages ⟨.cell, .constant (.scalar 2)⟩ 0 .bary).run cm [0, 0, 0, 0, 0] =
        .ok .done [2, 0, 0, 0, 0] ∧
      (allAverages ⟨.cell, .constant (.scalar 2)⟩ 0 .bary).run full [0, 0, 0, 0, 0] =
        .ok .done [2, 2, 2, 2, 2] := by
  have hm := Tetrahedron.build_unitMesh
  have hc := Tetrahedron.regularCell_unitMesh.lt
  obtain ⟨cm, full, hcm, hfull, hagrees, hmeans⟩ := capabilities hm hc [.vertexIds]
  have hall := build_eq_ofTables (PolyhedralMesh.consistent_of_build hm hc)
    CapabilitySet.closed_all
  obtain rfl := Except.ok.inj (hfull.symm.trans hall)
  obtain ⟨hpart, hwhole⟩ := hmeans rfl ⟨.cell, .constant (.scalar 2)⟩ (.scalar 2) 0 .bary
    [0, 0, 0, 0, 0] rfl (by rw [faceCount_unitMesh]; decide)
  rw [faceCount_unitMesh] at hwhole
  exact ⟨cm, _, hcm, hfull, hagrees _ _ trivial nofun, hpart, hwhole⟩

/-- The means of a constant do not find the faces missing, and are not those of the full cache. -/
theorem unchecked_faces :
    ∃ cm full,
      CellCache.build Tetrahedron.unitMesh.toMeshTables 0 (.ofList [.vertexIds]) = .ok cm ∧
      CellCache.build Tetrahedron.unitMesh.toMeshTables 0 .all = .ok full ∧
      ¬((allAverages ⟨.cell, .constant (.scalar 2)⟩ 0 .bary).run cm).Agrees
        ((allAverages ⟨.cell, .constant (.scalar 2)⟩ 0 .bary).run full) [0, 0, 0, 0, 0] := by
  have hcons := PolyhedralMesh.consistent_of_build Tetrahedron.build_unitMesh
    Tetrahedron.regularCell_unitMesh.lt
  have hclosed := CapabilitySet.closed_ofList [.vertexIds]
  refine ⟨_, _, build_eq_ofTables hcons hclosed,
    build_eq_ofTables hcons CapabilitySet.closed_all, ?_⟩
  have hpart : (allAverages ⟨.cell, .constant (.scalar 2)⟩ 0 .bary).run
      (ofTables Tetrahedron.unitMesh.toMeshTables 0 (.ofList [.vertexIds])) [0, 0, 0, 0, 0] =
        .ok .done [2, 0, 0, 0, 0] := by
    refine (run_allAverages_constant_of_lack rfl rfl 0 .bary ?_).trans rfl
    show 1 ≤ 5
    decide
  have hwhole : (allAverages ⟨.cell, .constant (.scalar 2)⟩ 0 .bary).run
      (ofTables Tetrahedron.unitMesh.toMeshTables 0 .all) [0, 0, 0, 0, 0] =
        .ok .done [2, 2, 2, 2, 2] := by
    refine (run_allAverages_constant _ rfl 0 .bary ?_).trans ?_
    · rw [faceCount_unitMesh]
      decide
    · rw [faceCount_unitMesh]
      rfl
  rintro (⟨k, out, hlack⟩ | heq)
  · cases hpart.symm.trans hlack
  · have hbuf := hpart.symm.trans (heq.trans hwhole)
    simp at hbuf

end CellCall

end Polyfield
