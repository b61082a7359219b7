import Polyfield.Proofs.BulkAddressing
import Polyfield.Proofs.CellRefusals

/-!
# Refusals

A refusal is an answer: it leaves the buffer as it was, and it depends on what was asked for alone,
not on any number.

* `BulkCall.refusesAs_run` : a bulk call refuses as `BulkCall.refusal?` says;
* `Request.outline` : a request without its numbers;
* `Request.refusals` : refusals leave the buffer alone, and requests of the same outline are
  refused alike.
-/

namespace Polyfield

variable {R : Type}

/-! ## Expected refusals -/

/-- How interpolation to `n` vertices is refused. -/
def ValueArray.verticesRefusal? (a : ValueArray R) (n : Nat) (s : Selection) : Option Refusal :=
  if s ≠ .all n then some (.invalidSelection .vectorsAtVertices .missesVertices)
  else match a.location with
    | .cell => dimRefusal? [3] .vectorsAtVertices a.stride
    | location => supportRefusal? [.dualFaceByCell] .vectorsAtVertices location

namespace Source

/-- How the evaluation at the cells is refused. -/
def atCellsRefusal? : Source R → Option Refusal
  | constant _ | function _ => none
  | array a => supportRefusal? [.cell, .vertex, .dualFaceByCell] .arrayAtCells a.location
  | field f => supportRefusal? [.cell, .vertex] .fieldAtCells f.location

/-- How the evaluation at some of `n` vertices is refused. -/
def atVerticesRefusal? (n : Nat) (s : Selection) : Source R → Option Refusal
  | constant _ | function _ => none
  | array a =>
    if a.location = .cell ∨ a.location = .dualFaceByCell then a.verticesRefusal? n s
    else supportRefusal? [.vertex] .arrayAtVertices a.location
  | field f => supportRefusal? [.vertex] .fieldAtVertices f.location

/-- How the evaluation at a support is refused. -/
def evaluationRefusal? (n : Nat) (s : Selection) (q : Source R) : Support → Option Refusal
  | .cell => q.atCellsRefusal?
  | .vertex => q.atVerticesRefusal? n s
  | .boundaryFace =>
    if q.kind = .constant ∨ q.kind = .function then none
    else some (.unsupportedSupport .evaluate .boundaryFace)
  | target => if q.kind = .constant then none else some (.unsupportedSupport .evaluate target)

end Source

/-- How a bulk call for a selection is refused on a mesh of `n` vertices. -/
def BulkCall.refusal? (n : Nat) (s : Selection) : BulkCall R → Option Refusal
  | boundaryAverage q _ => q.source.meanRefusal? .boundaryAverage .triangleRule
  | boundaryAverageOfFunction f _ _ => dimRefusal? [1, 3, 9] .triangleRule f.dim
  | arrayAtCells a => (Source.array a).atCellsRefusal?
  | arrayAtVertices a => supportRefusal? [.vertex] .arrayAtVertices a.location
  | fieldAtCells f => (Source.field f).atCellsRefusal?
  | fieldAtVertices f => supportRefusal? [.vertex] .fieldAtVertices f.location
  | evaluate q target _ => q.source.evaluationRefusal? n s target
  | _ => none

/-! ## Outlines -/

/-- A vector without its numbers. -/
def Vec3.outline (_ : Vec3 R) : Vec3 Unit := ⟨(), (), ()⟩

/-- A constant without its numbers. -/
def Value.outline : Value R → Value Unit
  | scalar _ => .scalar ()
  | vector v => .vector v.outline
  | tensor m => .tensor ⟨m.row0.outline, m.row1.outline, m.row2.outline⟩

/-- A function without its values. -/
def SpaceTimeFunction.outline (f : SpaceTimeFunction R) : SpaceTimeFunction Unit where
  dim := f.dim
  value _ _ := Vector.replicate f.dim ()

/-- An array without its values. -/
def ValueArray.outline (a : ValueArray R) : ValueArray Unit where
  values := a.values.map fun _ => ()
  stride := a.stride
  location := a.location
  index := a.index

/-- A field without its values. -/
def ValueField.outline (f : ValueField R) : ValueField Unit where
  dim := f.dim
  location := f.location
  values := f.values.map fun _ => ()

/-- A source without its numbers. -/
def Source.outline : Source R → Source Unit
  | constant v => .constant v.outline
  | function f => .function f.outline
  | array a => .array a.outline
  | field f => .field f.outline

/-- A quantity without its numbers. -/
def Quantity.outline (q : Quantity R) : Quantity Unit := ⟨q.support, q.source.outline⟩

/-- A rule without the coordinates and weights of its nodes. -/
def SimplexRule.outline {n : Nat} (rule : SimplexRule R n) : SimplexRule Unit n where
  nodes := rule.nodes.map fun _ => ⟨Vector.replicate n (), ()⟩
  degree := rule.degree

/-- A call on a cell without its numbers. -/
def CellCall.outline : CellCall R → CellCall Unit
  | value q _ => .value q.outline ()
  | functionAtCenter f _ => .functionAtCenter f.outline ()
  | arrayValue a => .arrayValue a.outline
  | fieldValue f => .fieldValue f.outline
  | valueAtPoints q points _ => .valueAtPoints q.outline (points.map Vec3.outline) ()
  | arrayAtPoints a n => .arrayAtPoints a.outline n
  | fieldAtPoints f n => .fieldAtPoints f.outline n
  | vectorArrayAtPoints a n => .vectorArrayAtPoints a.outline n
  | vectorFieldAtPoints f n => .vectorFieldAtPoints f.outline n
  | faceAverage q face _ level => .faceAverage q.outline face () level
  | cellAverage q _ level => .cellAverage q.outline () level
  | allAverages q _ level => .allAverages q.outline () level
  | averageVertices values stride => .averageVertices (values.map fun _ => ()) stride
  | writeVectorOfFluxes fluxes => .writeVectorOfFluxes (fluxes.map fun _ => ())
  | integrateFace face _ f rule => .integrateFace face () f.outline rule.outline
  | integrateCell _ f rule => .integrateCell () f.outline rule.outline
  | integrateCellAndFaces _ f tetraRule triangleRule cellEntries =>
    .integrateCellAndFaces () f.outline tetraRule.outline triangleRule.outline cellEntries
  | faceFlux q face _ level => .faceFlux q.outline face () level
  | constantFlux face u => .constantFlux face u.outline
  | functionFlux face _ f level => .functionFlux face () f.outline level
  | tensorFlux q face _ level => .tensorFlux q.outline face () level
  | vertexFlux q face _ level => .vertexFlux q.outline face () level
  | constantVertexFlux face u => .constantVertexFlux face u.outline
  | functionVertexFlux face _ f level => .functionVertexFlux face () f.outline level

/-- A bulk call without its numbers. -/
def BulkCall.outline : BulkCall R → BulkCall Unit
  | constant v => .constant v.outline
  | functionAtCells f _ => .functionAtCells f.outline ()
  | functionAtVertices f _ => .functionAtVertices f.outline ()
  | functionAtBoundaryFaces f _ => .functionAtBoundaryFaces f.outline ()
  | boundaryAverage q _ => .boundaryAverage q.outline ()
  | boundaryAverageOfFunction f _ level => .boundaryAverageOfFunction f.outline () level
  | arrayAtCells a => .arrayAtCells a.outline
  | arrayAtVertices a => .arrayAtVertices a.outline
  | fieldAtCells f => .fieldAtCells f.outline
  | fieldAtVertices f => .fieldAtVertices f.outline
  | evaluate q target _ => .evaluate q.outline target ()

namespace Source

variable (q : Source R)

@[simp] theorem kind_outline : q.outline.kind = q.kind := by
  cases q <;> rfl

@[simp] theorem cellRefusal?_outline : q.outline.cellRefusal? = q.cellRefusal? := by
  cases q <;> rfl

@[simp] theorem pointsRefusal?_outline (n : Nat) :
    q.outline.pointsRefusal? n = q.pointsRefusal? n := by
  simp [pointsRefusal?]

@[simp] theorem meanRefusal?_outline (op rule : Operation) :
    q.outline.meanRefusal? op rule = q.meanRefusal? op rule := by
  cases q <;> rfl

@[simp] theorem fluxRefusal?_outline (op : Operation) (dim : Nat) :
    q.outline.fluxRefusal? op dim = q.fluxRefusal? op dim := by
  cases q with
  | constant v => cases v <;> rfl
  | function f => rfl
  | array a => rfl
  | field f => rfl

@[simp] theorem atCellsRefusal?_outline : q.outline.atCellsRefusal? = q.atCellsRefusal? := by
  cases q <;> rfl

@[simp] theorem atVerticesRefusal?_outline (n : Nat) (s : Selection) :
    q.outline.atVerticesRefusal? n s = q.atVerticesRefusal? n s := by
  cases q <;> rfl

@[simp] theorem evaluationRefusal?_outline (n : Nat) (s : Selection) (target : Support) :
    q.outline.evaluationRefusal? n s target = q.evaluationRefusal? n s target := by
  cases target <;> simp [evaluationRefusal?]

end Source

/-- The refusal of a call on a cell is that of its outline. -/
theorem CellCall.refusal?_outline (call : CellCall R) : call.outline.refusal? = call.refusal? := by
  cases call with
  | value q t => exact q.source.cellRefusal?_outline
  | valueAtPoints q points t =>
    show q.source.outline.pointsRefusal? (points.map Vec3.outline).length =
      q.source.pointsRefusal? points.length
    rw [List.length_map, Source.pointsRefusal?_outline]
  | faceAverage q face t level => exact q.source.meanRefusal?_outline _ _
  | cellAverage q t level => exact q.source.meanRefusal?_outline _ _
  | allAverages q t level => exact q.source.meanRefusal?_outline _ _
  | faceFlux q face t level => exact q.source.fluxRefusal?_outline _ _
  | tensorFlux q face t level => exact q.source.fluxRefusal?_outline _ _
  | vertexFlux q face t level =>
    show (q.source.outline.fluxRefusal? .vertexFlux 3 <|>
      if q.source.outline.kind = .function then splittingRefusal? level else none) = _
    rw [Source.fluxRefusal?_outline, Source.kind_outline]
    rfl
  | _ => rfl

/-- The refusal of a bulk call is that of its outline. -/
theorem BulkCall.refusal?_outline (n : Nat) (s : Selection) (call : BulkCall R) :
    call.outline.refusal? n s = call.refusal? n s := by
  cases call with
  | boundaryAverage q t => exact q.source.meanRefusal?_outline _ _
  | evaluate q target t => exact q.source.evaluationRefusal?_outline n s target
  | _ => rfl

variable [Scalar R]

/-! ## Bulk calls -/

namespace BulkEvaluator

open Fill.RefusesAs

variable (ev : BulkEvaluator R) (s : Selection)

theorem refusesAs_boundaryAverageOfFunction (f : SpaceTimeFunction R) (t : R) (level : Level) :
    Fill.RefusesAs (dimRefusal? [1, 3, 9] .triangleRule f.dim)
      (ev.boundaryAverageOfFunction f s t level) :=
  (of_lift (SimplexRule.refusesAs_triangleFor level f.dim)).bind fun _ => of_ofUpdate _

theorem refusesAs_boundaryAverage (q : Quantity R) (t : R) :
    Fill.RefusesAs (q.source.meanRefusal? .boundaryAverage .triangleRule)
      (ev.boundaryAverage q s t) := by
  unfold boundaryAverage Quantity.kind
  cases q.source with
  | constant v => exact of_ofUpdate _
  | function f => exact ev.refusesAs_boundaryAverageOfFunction s f t _
  | array a => exact of_refuse _
  | field f => exact of_refuse _

theorem refusesAs_arrayAtCells (a : ValueArray R) :
    Fill.RefusesAs (Source.array a).atCellsRefusal? (ev.arrayAtCells a s) := by
  unfold arrayAtCells
  rw [Source.atCellsRefusal?]
  refine check_bind (fun buf out h => ?_) ?_
  · obtain ⟨-, h⟩ := unit_bind_eq_ok.1 h
    exact (Except.ok.inj h).symm
  · cases a.location with
    | cell => exact of_ofUpdate _
    | vertex => exact of_ofUpdate _
    | dualFaceByCell => exact of_ofUpdate _
    | face => exact of_refuse _
    | boundaryFace => exact of_refuse _

omit [Scalar R] in
theorem refusesAs_arrayAtVertices (a : ValueArray R) :
    Fill.RefusesAs (supportRefusal? [.vertex] .arrayAtVertices a.location)
      (ev.arrayAtVertices a s) := by
  unfold arrayAtVertices supportRefusal?
  by_cases h : a.location = .vertex
  · simpa [h] using of_ofUpdate _
  · simpa [h] using of_refuse _

omit [Scalar R] in
theorem refusesAs_fieldAtVertices (f : ValueField R) :
    Fill.RefusesAs (supportRefusal? [.vertex] .fieldAtVertices f.location)
      (ev.fieldAtVertices f s) := by
  unfold fieldAtVertices supportRefusal?
  by_cases h : f.location = .vertex
  · simpa [h] using of_ofUpdate _
  · simpa [h] using of_refuse _

theorem refusesAs_fieldAtCells (f : ValueField R) :
    Fill.RefusesAs (Source.field f).atCellsRefusal? (ev.fieldAtCells f s) := by
  unfold fieldAtCells
  rw [Source.atCellsRefusal?]
  cases f.location with
  | cell => exact of_ofUpdate _
  | vertex => exact of_ofUpdate _
  | dualFaceByCell => exact of_refuse _
  | face => exact of_refuse _
  | boundaryFace => exact of_refuse _

theorem refusesAs_vectorsAtVertices (a : ValueArray R) :
    Fill.RefusesAs (a.verticesRefusal? ev.mesh.vertexCount s) (ev.vectorsAtVertices a s) := by
  unfold vectorsAtVertices ValueArray.verticesRefusal?
  by_cases hs : s ≠ .all ev.mesh.vertexCount
  · rw [if_pos hs, if_pos hs]
    exact of_refuse_bind _ _
  · rw [if_neg hs, if_neg hs]
    cases a.location with
    | cell =>
      by_cases h : a.stride = 3
      · simpa [h, dimRefusal?] using of_ofUpdate _
      · simpa [h, dimRefusal?] using of_refuse _
    | dualFaceByCell => exact of_ofUpdate _
    | vertex => exact of_refuse _
    | face => exact of_refuse _
    | boundaryFace => exact of_refuse _

theorem refusesAs_arrayEvaluation (a : ValueArray R) :
    Fill.RefusesAs ((Source.array a).atVerticesRefusal? ev.mesh.vertexCount s)
      (match a.location with
        | .cell | .dualFaceByCell => ev.vectorsAtVertices a s
        | _ => ev.arrayAtVertices a s) := by
  have hvectors := ev.refusesAs_vectorsAtVertices s a
  have hcopied := ev.refusesAs_arrayAtVertices s a
  rw [Source.atVerticesRefusal?]
  cases hlocation : a.location with
  | cell => simpa [hlocation] using hvectors
  | dualFaceByCell => simpa [hlocation] using hvectors
  | vertex => simpa [hlocation] using hcopied
  | face => simpa [hlocation] using hcopied
  | boundaryFace => simpa [hlocation] using hcopied

theorem refusesAs_evaluate (q : Quantity R) (target : Support) (t : R) :
    Fill.RefusesAs (q.source.evaluationRefusal? ev.mesh.vertexCount s target)
      (ev.evaluate q target s t) := by
  unfold evaluate
  cases q.source with
  | constant v => cases target <;> exact of_ofUpdate _
  | function f =>
    cases target with
    | cell => exact of_ofUpdate _
    | vertex => exact of_ofUpdate _
    | boundaryFace => exact of_ofUpdate _
    | face => exact of_refuse _
    | dualFaceByCell => exact of_refuse _
  | array a =>
    cases target with
    | cell => exact ev.refusesAs_arrayAtCells s a
    | vertex => exact ev.refusesAs_arrayEvaluation s a
    | boundaryFace => exact of_refuse _
    | face => exact of_refuse _
    | dualFaceByCell => exact of_refuse _
  | field f =>
    cases target with
    | cell => exact ev.refusesAs_fieldAtCells s f
    | vertex => exact ev.refusesAs_fieldAtVertices s f
    | boundaryFace => exact of_refuse _
    | face => exact of_refuse _
    | dualFaceByCell => exact of_refuse _

end BulkEvaluator

/-- **Every bulk call refuses as its kinds, locations, numbers of components and its selection
say.** -/
theorem BulkCall.refusesAs_run (ev : BulkEvaluator R) (s : Selection) (call : BulkCall R) :
    Fill.RefusesAs (call.refusal? ev.mesh.vertexCount s) (call.run ev s) := by
  cases call with
  | constant v => exact .of_ofUpdate _
  | functionAtCells f t => exact .of_ofUpdate _
  | functionAtVertices f t => exact .of_ofUpdate _
  | functionAtBoundaryFaces f t => exact .of_ofUpdate _
  | boundaryAverage q t => exact ev.refusesAs_boundaryAverage s q t
  | boundaryAverageOfFunction f t level => exact ev.refusesAs_boundaryAverageOfFunction s f t level
  | arrayAtCells a => exact ev.refusesAs_arrayAtCells s a
  | arrayAtVertices a => exact ev.refusesAs_arrayAtVertices s a
  | fieldAtCells f => exact ev.refusesAs_fieldAtCells s f
  | fieldAtVertices f => exact ev.refusesAs_fieldAtVertices s f
  | evaluate q target t => exact ev.refusesAs_evaluate s q target t

/-! ## Requests -/

/-- A call with all that it works on but the buffer. -/
inductive Request (R : Type)
  | bulk (ev : BulkEvaluator R) (s : Selection) (call : BulkCall R)
  | vectorsAtVertices (ev : BulkEvaluator R) (s : Selection) (a : ValueArray R)
  | cell (cm : CellCache R) (call : CellCall R)

/-- What a request asks for, without any number.  Of a mesh it keeps the number of vertices, and of
a cache nothing. -/
inductive RequestOutline
  | bulk (vertexCount : Nat) (s : Selection) (call : BulkCall Unit)
  | vectorsAtVertices (vertexCount : Nat) (s : Selection) (a : ValueArray Unit)
  | cell (call : CellCall Unit)

/-- How a request is refused that is described by an outline. -/
def RequestOutline.refusal? : RequestOutline → Option Refusal
  | bulk n s call => call.refusal? n s
  | vectorsAtVertices n s a => a.verticesRefusal? n s
  | cell call => call.refusal?

namespace Request

/-- Run a request. -/
def run : Request R → Fill R (Answer R)
  | bulk ev s call => .done (call.run ev s)
  | vectorsAtVertices ev s a => .done (ev.vectorsAtVertices a s)
  | cell cm call => call.run cm

/-- The outline of a request. -/
def outline : Request R → RequestOutline
  | bulk ev s call => .bulk ev.mesh.vertexCount s call.outline
  | vectorsAtVertices ev s a => .vectorsAtVertices ev.mesh.vertexCount s a.outline
  | cell _ call => .cell call.outline

theorem refusesAs_run (r : Request R) : Fill.RefusesAs r.outline.refusal? r.run := by
  cases r with
  | bulk ev s call =>
    show Fill.RefusesAs (call.outline.refusal? ev.mesh.vertexCount s) _
    rw [BulkCall.refusal?_outline]
    exact (call.refusesAs_run ev s).done
  | vectorsAtVertices ev s a => exact (ev.refusesAs_vectorsAtVertices s a).done
  | cell cm call =>
    show Fill.RefusesAs call.outline.refusal? _
    rw [CellCall.refusal?_outline]
    exact call.refusesAs_run cm

/-- **Refusals are answers.**  A refused request leaves the buffer as it was.  Two requests with the
same outline that meet no breach are refused alike, or both served. -/
theorem refusals (r : Request R) :
    (∀ buf refusal out, r.run buf = .error (.refused refusal) out → out = buf) ∧
    ∀ r' : Request R, r'.outline = r.outline → ∀ buf buf',
      (∃ b out, r.run buf = .error (.breached b) out) ∨
      (∃ b out, r'.run buf' = .error (.breached b) out) ∨
      (∃ refusal, r.run buf = .error (.refused refusal) buf ∧
        r'.run buf' = .error (.refused refusal) buf') ∨
      ∃ answer out answer' out', r.run buf = .ok answer out ∧ r'.run buf' = .ok answer' out' := by
  have hr := r.refusesAs_run
  refine ⟨fun buf refusal out h => (hr.refused buf refusal out h).2, fun r' houtline buf buf' => ?_⟩
  have hr' := r'.refusesAs_run
  rw [houtline] at hr'
  rcases hr.run_cases buf with hbreach | ⟨refusal, hsome, hrun⟩ | ⟨hnone, answer, out, hrun⟩
  · exact .inl hbreach
  · rcases hr'.run_cases buf' with hbreach | ⟨refusal', hsome', hrun'⟩ | ⟨hnone, -⟩
    · exact .inr (.inl hbreach)
    · obtain rfl : refusal = refusal' := Option.some.inj (hsome.symm.trans hsome')
      exact .inr (.inr (.inl ⟨refusal, hrun, hrun'⟩))
    · cases hsome.symm.trans hnone
  · rcases hr'.run_cases buf' with hbreach | ⟨refusal, hsome, -⟩ | ⟨-, answer', out', hrun'⟩
    · exact .inr (.inl hbreach)
    · cases hsome.symm.trans hnone
    · exact .inr (.inr (.inr ⟨answer, out, answer', out', hrun, hrun'⟩))

/-- Two arrays of pairs are refused alike where vectors are asked for, and a field on the faces is
refused with the buffer as it was. -/
theorem refusals_pairs :
    (∃ refusal,
      (cell (.empty .all) (.vectorArrayAtPoints ⟨[1, 2], 2, .cell, none⟩ 1)).run [5, 6, 7] =
        .error (.refused refusal) ([5, 6, 7] : Buffer ℝ) ∧
      (cell (.empty .all) (.vectorArrayAtPoints ⟨[3, 4], 2, .cell, none⟩ 1)).run [8] =
        .error (.refused refusal) ([8] : Buffer ℝ)) ∧
    ∀ out, (cell (.empty .all) (.fieldAtPoints ⟨1, .face, [1]⟩ 2)).run [5, 6, 7] =
      .error (.refused (.unsupportedSupport .fieldInCell .face)) out →
        out = ([5, 6, 7] : Buffer ℝ) := by
  refine ⟨?_, fun out h => (refusals _).1 _ _ out h⟩
  rcases (refusals (cell (.empty .all) (.vectorArrayAtPoints
      (⟨[1, 2], 2, .cell, none⟩ : ValueArray ℝ) 1))).2
    (cell (.empty .all) (.vectorArrayAtPoints ⟨[3, 4], 2, .cell, none⟩ 1)) rfl [5, 6, 7] [8] with
    ⟨b, out, h⟩ | ⟨b, out, h⟩ | h | ⟨answer, out, answer', out', h, -⟩
  · cases h
  · cases h
  · exact h
  · cases h

end Request

end Polyfield
