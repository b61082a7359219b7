import Polyfield.Proofs.RefusingSteps

/-!
# Refusals of calls on a cell

Which calls on a cell are refused, and how: `CellCall.refusal?` reads it off the kinds, locations,
numbers of components, numbers of points and levels of a call.

* `supportRefusal?`, `dimRefusal?` : the two checks that most routines make;
* `CellCall.refusesAs_run` : a run refuses as `CellCall.refusal?` says, from one lemma for each
  routine.
-/

namespace Polyfield

variable {R : Type}

/-! ## Expected refusals -/

/-- An operation refuses values on supports that it cannot handle. -/
def supportRefusal? (allowed : List Support) (op : Operation) (s : Support) : Option Refusal :=
  if s ∈ allowed then none else some (.unsupportedSupport op s)

/-- An operation refuses quantities with other numbers of components. -/
def dimRefusal? (allowed : List Nat) (op : Operation) (dim : Nat) : Option Refusal :=
  if dim ∈ allowed then none else some (.invalidDimension op dim)

namespace Source

/-- How the value in a cell is refused. -/
def cellRefusal? : Source R → Option Refusal
  | constant _ | function _ => none
  | array a => supportRefusal? [.cell, .vertex, .dualFaceByCell] .arrayInCell a.location
  | field f => supportRefusal? [.cell, .vertex] .fieldInCell f.location

/-- How the values at `n` points of a cell are refused; at no points they never are. -/
def pointsRefusal? (n : Nat) (s : Source R) : Option Refusal :=
  if n = 0 then none else s.cellRefusal?

/-- How a mean is refused that is computed with a rule. -/
def meanRefusal? (op rule : Operation) : Source R → Option Refusal
  | constant _ => none
  | function f => dimRefusal? [1, 3, 9] rule f.dim
  | s => some (.unsupportedKind op s.kind)

/-- How a flux of a quantity of `dim` components is refused. -/
def fluxRefusal? (op : Operation) (dim : Nat) : Source R → Option Refusal
  | constant v => dimRefusal? [dim] op v.dim
  | function f => dimRefusal? [dim] op f.dim
  | s => some (.unsupportedKind op s.kind)

end Source

/-- How the samples of a flux are refused: only the higher levels have rules. -/
def samplesRefusal? : Level → Nat → Option Refusal
  | .bary, _ | .barySubdiv, _ => none
  | .higher, dim | .highest, dim => dimRefusal? [1, 3, 9] .triangleRule dim

/-- A flux is not split between vertices at the highest level. -/
def splittingRefusal? : Level → Option Refusal
  | .highest => some (.levelNotImplemented .vertexFlux .highest)
  | _ => none

/-- How a call on a cell is refused. -/
def CellCall.refusal? : CellCall R → Option Refusal
  | value q _ => q.source.cellRefusal?
  | arrayValue a => (Source.array a).cellRefusal?
  | fieldValue f => (Source.field f).cellRefusal?
  | valueAtPoints q points _ => q.source.pointsRefusal? points.length
  | arrayAtPoints a n => (Source.array a).pointsRefusal? n
  | fieldAtPoints f n => (Source.field f).pointsRefusal? n
  | vectorArrayAtPoints a n =>
    dimRefusal? [3] .vectorArrayAtPoints a.dim <|> (Source.array a).pointsRefusal? n
  | vectorFieldAtPoints f n =>
    dimRefusal? [3] .vectorFieldAtPoints f.dim <|> (Source.field f).pointsRefusal? n
  | faceAverage q _ _ _ => q.source.meanRefusal? .faceAverage .triangleRule
  | cellAverage q _ _ => q.source.meanRefusal? .cellAverage .tetraRule
  | allAverages q _ _ => q.source.meanRefusal? .allAverages .tetraRule
  | faceFlux q _ _ _ => q.source.fluxRefusal? .faceFlux 3
  | functionFlux _ _ f level => samplesRefusal? level f.dim
  | tensorFlux q _ _ _ => q.source.fluxRefusal? .tensorFlux 9
  | vertexFlux q _ _ level => q.source.fluxRefusal? .vertexFlux 3 <|>
    if q.kind = .function then splittingRefusal? level else none
  | functionVertexFlux _ _ _ level => splittingRefusal? level
  | _ => none

/-! ## Rules -/

variable [Scalar R]

theorem SimplexRule.refusesAs_checkDim (op : Operation) (dim : Nat) :
    RefusesAs (dimRefusal? [1, 3, 9] op dim) (checkDim op dim) := by
  unfold checkDim dimRefusal?
  by_cases h : dim = 1 ∨ dim = 3 ∨ dim = 9
  · simpa [h] using RefusesAs.of_ok ()
  · simpa [h] using RefusesAs.of_refuse _

theorem SimplexRule.refusesAs_triangleFor (level : Level) (dim : Nat) :
    RefusesAs (dimRefusal? [1, 3, 9] .triangleRule dim) (triangleFor (R := R) level dim) := by
  unfold triangleFor
  exact (refusesAs_checkDim .triangleRule dim).bind_none fun _ => RefusesAs.of_ok _

theorem SimplexRule.refusesAs_tetraFor (level : Level) (dim : Nat) :
    RefusesAs (dimRefusal? [1, 3, 9] .tetraRule dim) (tetraFor (R := R) level dim) := by
  unfold tetraFor
  exact (refusesAs_checkDim .tetraRule dim).bind_none fun _ => RefusesAs.of_ok _

/-! ## Calls on a cell -/

namespace CellCache

open Fill.RefusesAs

variable (cm : CellCache R)

theorem refusesAs_arrayValue (a : ValueArray R) :
    Fill.RefusesAs (Source.array a).cellRefusal? (cm.arrayValue a) := by
  unfold arrayValue
  rw [Source.cellRefusal?]
  cases a.location with
  | cell => exact of_ofUpdate _
  | vertex => exact of_ofUpdate _
  | dualFaceByCell => exact of_ofUpdate _
  | face => exact of_refuse _
  | boundaryFace => exact of_refuse _

theorem refusesAs_fieldValue (f : ValueField R) :
    Fill.RefusesAs (Source.field f).cellRefusal? (cm.fieldValue f) := by
  unfold fieldValue
  rw [Source.cellRefusal?]
  cases f.location with
  | cell => exact of_ofUpdate _
  | vertex => exact of_ofUpdate _
  | dualFaceByCell => exact of_refuse _
  | face => exact of_refuse _
  | boundaryFace => exact of_refuse _

theorem refusesAs_value (q : Quantity R) (t : R) :
    Fill.RefusesAs q.source.cellRefusal? (cm.value q t) := by
  unfold value
  cases q.source with
  | constant v => exact of_ofUpdate _
  | function f => exact of_ofUpdate _
  | array a => exact cm.refusesAs_arrayValue a
  | field f => exact cm.refusesAs_fieldValue f

theorem refusesAs_arrayAtPoints (a : ValueArray R) (n : Nat) :
    Fill.RefusesAs ((Source.array a).pointsRefusal? n) (cm.arrayAtPoints a n) := by
  unfold arrayAtPoints Source.pointsRefusal?
  by_cases hn : n = 0
  · rw [if_pos hn, if_pos hn]
    exact of_pure ()
  · rw [if_neg hn, if_neg hn]
    exact ((cm.refusesAs_arrayValue a).onFirst _).bind fun _ => of_ofUpdate _

theorem refusesAs_fieldAtPoints (f : ValueField R) (n : Nat) :
    Fill.RefusesAs ((Source.field f).pointsRefusal? n) (cm.fieldAtPoints f n) := by
  unfold fieldAtPoints Source.pointsRefusal?
  by_cases hn : n = 0
  · rw [if_pos hn, if_pos hn]
    exact of_pure ()
  · rw [if_neg hn, if_neg hn]
    exact ((cm.refusesAs_fieldValue f).onFirst _).bind fun _ => of_ofUpdate _

theorem refusesAs_valueAtPoints (q : Quantity R) (points : List (Vec3 R)) (t : R) :
    Fill.RefusesAs (q.source.pointsRefusal? points.length) (cm.valueAtPoints q points t) := by
  unfold valueAtPoints
  cases q.source with
  | constant v => simpa [Source.pointsRefusal?, Source.cellRefusal?] using of_ofUpdate _
  | function f => simpa [Source.pointsRefusal?, Source.cellRefusal?] using of_ofUpdate _
  | array a => exact cm.refusesAs_arrayAtPoints a _
  | field f => exact cm.refusesAs_fieldAtPoints f _

theorem refusesAs_vectorArrayAtPoints (a : ValueArray R) (n : Nat) :
    Fill.RefusesAs (dimRefusal? [3] .vectorArrayAtPoints a.dim <|>
      (Source.array a).pointsRefusal? n) (cm.vectorArrayAtPoints a n) := by
  unfold vectorArrayAtPoints
  by_cases h : a.location ≠ .dualFaceByCell ∧ a.stride ≠ 3
  · have hdim : dimRefusal? [3] .vectorArrayAtPoints a.dim =
        some (.invalidDimension .vectorArrayAtPoints a.stride) := by
      obtain ⟨hlocation, hstride⟩ := h
      have ha : a.dim = a.stride := by
        unfold ValueArray.dim
        split <;> simp_all
      simp [dimRefusal?, ha, hstride]
    rw [if_pos h, hdim]
    exact of_refuse _
  · have hdim : dimRefusal? [3] .vectorArrayAtPoints a.dim = none := by
      unfold ValueArray.dim
      split <;> simp_all [dimRefusal?]
    rw [if_neg h, hdim]
    exact cm.refusesAs_arrayAtPoints a n

theorem refusesAs_vectorFieldAtPoints (f : ValueField R) (n : Nat) :
    Fill.RefusesAs (dimRefusal? [3] .vectorFieldAtPoints f.dim <|>
      (Source.field f).pointsRefusal? n) (cm.vectorFieldAtPoints f n) := by
  unfold vectorFieldAtPoints
  by_cases h : f.dim ≠ 3
  · rw [if_pos h, dimRefusal?, if_neg (by simpa using h)]
    exact of_refuse _
  · rw [if_neg h, dimRefusal?, if_pos (by simpa using h)]
    exact cm.refusesAs_fieldAtPoints f n

theorem refusesAs_faceAverage (q : Quantity R) (face : Nat) (t : R) (level : Level) :
    Fill.RefusesAs (q.source.meanRefusal? .faceAverage .triangleRule)
      (cm.faceAverage q face t level) := by
  unfold faceAverage Quantity.kind
  cases q.source with
  | constant v => exact of_ofUpdate _
  | function f =>
    exact (of_lift (SimplexRule.refusesAs_triangleFor level f.dim)).bind fun _ => of_ofUpdate _
  | array a => exact of_refuse _
  | field f => exact of_refuse _

theorem refusesAs_cellAverage (q : Quantity R) (t : R) (level : Level) :
    Fill.RefusesAs (q.source.meanRefusal? .cellAverage .tetraRule) (cm.cellAverage q t level) := by
  unfold cellAverage Quantity.kind
  cases q.source with
  | constant v => exact of_ofUpdate _
  | function f =>
    exact (of_lift (SimplexRule.refusesAs_tetraFor level f.dim)).bind fun _ => of_ofUpdate _
  | array a => exact of_refuse _
  | field f => exact of_refuse _

/-- The rule for the cell is looked up before the one for the faces, and refuses the same numbers
of components. -/
theorem refusesAs_allAverages (q : Quantity R) (t : R) (level : Level) :
    Fill.RefusesAs (q.source.meanRefusal? .allAverages .tetraRule) (cm.allAverages q t level) := by
  unfold allAverages Quantity.kind
  cases q.source with
  | constant v => exact of_ofUpdate _
  | function f =>
    have hrules : dimRefusal? [1, 3, 9] .tetraRule f.dim =
        (dimRefusal? [1, 3, 9] .tetraRule f.dim <|> dimRefusal? [1, 3, 9] .triangleRule f.dim) := by
      unfold dimRefusal?
      by_cases h : f.dim ∈ [1, 3, 9]
      · rw [if_pos h, if_pos h]
        rfl
      · rw [if_neg h, if_neg h]
        rfl
    rw [Source.meanRefusal?, hrules]
    refine lift_bind (SimplexRule.refusesAs_tetraFor level f.dim) fun _ => ?_
    exact (of_lift (SimplexRule.refusesAs_triangleFor level f.dim)).bind fun _ => of_ofUpdate _
  | array a => exact of_refuse _
  | field f => exact of_refuse _

/-! ## Fluxes -/

theorem refusesAs_fluxSamples (face dim : Nat) (level : Level) :
    RefusesAs (samplesRefusal? level dim) (cm.fluxSamples face dim level) := by
  unfold fluxSamples
  refine (RefusesAs.of_breach _).bind fun _ => (RefusesAs.of_breach _).bind fun g => ?_
  cases level with
  | bary => exact .of_ok _
  | barySubdiv =>
    exact (RefusesAs.of_breach _).bind fun _ => (RefusesAs.of_breach _).bind fun _ => .of_ok _
  | higher =>
    refine (RefusesAs.of_breach _).bind fun _ => ?_
    exact (SimplexRule.refusesAs_triangleFor _ dim).bind_none fun _ =>
      (RefusesAs.of_breach _).bind fun _ => .of_ok _
  | highest =>
    refine (RefusesAs.of_breach _).bind fun _ => ?_
    exact (SimplexRule.refusesAs_triangleFor _ dim).bind_none fun _ =>
      (RefusesAs.of_breach _).bind fun _ => .of_ok _

theorem refusesAs_functionFlux (face : Nat) (t : R) (f : SpaceTimeFunction R) (level : Level) :
    RefusesAs (samplesRefusal? level f.dim) (cm.functionFlux face t f level) := by
  unfold functionFlux
  refine (cm.refusesAs_fluxSamples face f.dim level).bind_none fun _ =>
    (RefusesAs.of_breach _).bind fun _ => RefusesAs.foldlM (fun _ _ => ?_) _ _
  exact (RefusesAs.of_breach _).bind fun _ => (RefusesAs.of_breach _).bind fun _ => .of_ok _

theorem refusesAs_functionTensorFlux (face : Nat) (t : R) (f : SpaceTimeFunction R)
    (level : Level) :
    RefusesAs (samplesRefusal? level f.dim) (cm.functionTensorFlux face t f level) := by
  unfold functionTensorFlux
  refine (cm.refusesAs_fluxSamples face f.dim level).bind_none fun _ =>
    (RefusesAs.of_breach _).bind fun _ => RefusesAs.foldlM (fun _ _ => ?_) _ _
  exact (RefusesAs.of_breach _).bind fun _ => (RefusesAs.of_breach _).bind fun _ => .of_ok _

/-- Vectors and tensors have rules. -/
theorem samplesRefusal?_eq_none {dim : Nat} (h : dim ∈ [1, 3, 9]) (level : Level) :
    samplesRefusal? level dim = none := by
  cases level with
  | bary => rfl
  | barySubdiv => rfl
  | higher => exact if_pos h
  | highest => exact if_pos h

theorem refusesAs_faceFlux (q : Quantity R) (face : Nat) (t : R) (level : Level) :
    RefusesAs (q.source.fluxRefusal? .faceFlux 3) (cm.faceFlux q face t level) := by
  unfold faceFlux Quantity.kind Quantity.dim
  cases q.source with
  | constant v =>
    cases v with
    | vector u => exact .of_breach _
    | scalar x => exact .of_refuse _
    | tensor m => exact .of_refuse _
  | function f =>
    rw [Source.fluxRefusal?, dimRefusal?]
    by_cases h : f.dim = 3
    · have hflux := cm.refusesAs_functionFlux face t f level
      rw [samplesRefusal?_eq_none (by simp [h])] at hflux
      simpa [h] using hflux
    · simpa [h, Source.dim] using RefusesAs.of_refuse _
  | array a => exact .of_refuse _
  | field f => exact .of_refuse _

theorem refusesAs_tensorFlux (q : Quantity R) (face : Nat) (t : R) (level : Level) :
    RefusesAs (q.source.fluxRefusal? .tensorFlux 9) (cm.tensorFlux q face t level) := by
  unfold tensorFlux Quantity.kind Quantity.dim
  cases q.source with
  | constant v =>
    cases v with
    | tensor m => exact .of_breach _
    | scalar x => exact .of_refuse _
    | vector u => exact .of_refuse _
  | function f =>
    rw [Source.fluxRefusal?, dimRefusal?]
    by_cases h : f.dim = 9
    · have hflux := cm.refusesAs_functionTensorFlux face t f level
      rw [samplesRefusal?_eq_none (by simp [h])] at hflux
      simpa [h] using hflux
    · simpa [h, Source.dim] using RefusesAs.of_refuse _
  | array a => exact .of_refuse _
  | field f => exact .of_refuse _

theorem refusesAs_functionVertexFlux (face : Nat) (t : R) (f : SpaceTimeFunction R)
    (level : Level) :
    Fill.RefusesAs (splittingRefusal? level) (cm.functionVertexFlux face t f level) := by
  unfold functionVertexFlux
  cases level with
  | bary => exact of_ofUpdate _
  | barySubdiv => exact of_ofUpdate _
  | higher => exact of_ofUpdate _
  | highest =>
    refine check_bind (fun buf out h => ?_) (of_refuse _)
    obtain ⟨-, h⟩ := unit_bind_eq_ok.1 h
    obtain ⟨g, -, h⟩ := bind_eq_ok.1 h
    exact (Except.ok.inj h).symm

theorem refusesAs_vertexFlux (q : Quantity R) (face : Nat) (t : R) (level : Level) :
    Fill.RefusesAs (q.source.fluxRefusal? .vertexFlux 3 <|>
      if q.kind = .function then splittingRefusal? level else none)
      (cm.vertexFlux q face t level) := by
  unfold vertexFlux Quantity.kind Quantity.dim
  refine check_bind (fun buf out h => ?_) ?_
  · obtain ⟨-, h⟩ := ite_error_eq_ok.1 h
    exact (Except.ok.inj h).symm
  · cases q.source with
    | constant v =>
      cases v with
      | vector u => exact of_ofUpdate _
      | scalar x => exact of_refuse _
      | tensor m => exact of_refuse _
    | function f =>
      rw [Source.fluxRefusal?, dimRefusal?]
      by_cases h : f.dim = 3
      · simpa [h, Source.kind] using cm.refusesAs_functionVertexFlux face t f level
      · simpa [h, Source.dim] using of_refuse _
    | array a => exact of_refuse _
    | field f => exact of_refuse _

end CellCache

/-- **Every call on a cell refuses as its kinds, numbers of components and levels say.** -/
theorem CellCall.refusesAs_run (cm : CellCache R) (call : CellCall R) :
    Fill.RefusesAs call.refusal? (call.run cm) := by
  cases call with
  | value q t => exact (cm.refusesAs_value q t).done
  | functionAtCenter f t => exact (Fill.RefusesAs.of_ofUpdate _).done
  | arrayValue a => exact (cm.refusesAs_arrayValue a).done
  | fieldValue f => exact (cm.refusesAs_fieldValue f).done
  | valueAtPoints q points t => exact (cm.refusesAs_valueAtPoints q points t).done
  | arrayAtPoints a n => exact (cm.refusesAs_arrayAtPoints a n).done
  | fieldAtPoints f n => exact (cm.refusesAs_fieldAtPoints f n).done
  | vectorArrayAtPoints a n => exact (cm.refusesAs_vectorArrayAtPoints a n).done
  | vectorFieldAtPoints f n => exact (cm.refusesAs_vectorFieldAtPoints f n).done
  | faceAverage q face t level => exact (cm.refusesAs_faceAverage q face t level).done
  | cellAverage q t level => exact (cm.refusesAs_cellAverage q t level).done
  | allAverages q t level => exact (cm.refusesAs_allAverages q t level).done
  | averageVertices values stride => exact (Fill.RefusesAs.of_ofUpdate _).done
  | writeVectorOfFluxes fluxes => exact (Fill.RefusesAs.of_ofUpdate _).done
  | integrateFace face t f rule => exact (Fill.RefusesAs.of_ofUpdate _).done
  | integrateCell t f rule => exact (Fill.RefusesAs.of_ofUpdate _).done
  | integrateCellAndFaces t f tetraRule triangleRule cellEntries =>
    exact (Fill.RefusesAs.of_ofUpdate _).done
  | faceFlux q face t level => exact .returning (cm.refusesAs_faceFlux q face t level)
  | constantFlux face u => exact .returning (.of_breach _)
  | functionFlux face t f level => exact .returning (cm.refusesAs_functionFlux face t f level)
  | tensorFlux q face t level => exact .returning (cm.refusesAs_tensorFlux q face t level)
  | vertexFlux q face t level => exact (cm.refusesAs_vertexFlux q face t level).done
  | constantVertexFlux face u => exact (Fill.RefusesAs.of_ofUpdate _).done
  | functionVertexFlux face t f level =>
    exact (cm.refusesAs_functionVertexFlux face t f level).done

end Polyfield
