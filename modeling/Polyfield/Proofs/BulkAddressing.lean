import Polyfield.Proofs.Batches
import Polyfield.Proofs.TetrahedronCell

/-!
# Addressing of bulk evaluation

Where a bulk evaluation puts its results.  Every `BulkCall` has a value for each entity, which
depends on the mesh and the level of the settings alone; the slot of each selected entity holds
its value afterwards, and every other entry of the buffer is as it was.

* `Selection.holds_of_filled` : filled slots in terms of the sources and targets of a selection;
* `Entrywise` : a call that works entity by entity;
* `BulkCall.exists_entrywise`, `BulkCall.run_unique` : all calls do, and their outputs do not depend
  on the threshold or the schedule;
* `BulkCall.addressing` : what the slots hold, for every threshold, order and old contents, and
  that selections of the same entities agree.
-/

namespace Polyfield

open Selection

/-! ## Addressed slots -/

namespace Selection

variable {α : Type} {dim : Nat} {val : Nat → Except Breach (List α)} {s : Selection}
  {buf out : List α}

/-- The slot of each selected entity holds its value, and every other entry is as it was. -/
structure Holds (dim : Nat) (val : Nat → Except Breach (List α)) (s : Selection)
    (buf out : List α) : Prop where
  length_eq : out.length = buf.length
  slot : ∀ i < s.length, ∃ e k v, s.source i = .ok e ∧ s.target i = .ok k ∧ val e = .ok v ∧
    slice out (dim * k) (dim * (k + 1)) = .ok v
  frame : ∀ j, (∀ i < s.length, ∀ k, s.target i = .ok k →
    ¬(dim * k ≤ j ∧ j < dim * (k + 1))) → out[j]? = buf[j]?

/-- The slots of a selection are its targets. -/
theorem mem_targets_iff {k : Nat} : k ∈ s.targets ↔ ∃ i < s.length, s.target i = .ok k := by
  cases s with
  | all n => simp [target, length]
  | compact ids => simp [target, length]
  | scattered ids =>
    simp only [targets, target, length, fetch_eq_ok, List.mem_iff_getElem?]
    constructor
    · rintro ⟨i, hi⟩
      exact ⟨i, (List.getElem?_eq_some_iff.1 hi).1, hi⟩
    · rintro ⟨i, -, hi⟩
      exact ⟨i, hi⟩

/-- The value of a slot is that of the entity that is put there. -/
theorem exists_source (val : Nat → Except Breach (List α)) {i : Nat} (hi : i < s.length) :
    ∃ e k, s.source i = .ok e ∧ s.target i = .ok k ∧ k ∈ s.targets ∧ s.slotValue val k = val e := by
  cases s with
  | all n => exact ⟨i, i, rfl, rfl, mem_targets_all.2 hi, rfl⟩
  | scattered ids =>
    have hid : fetch ids i = .ok ids[i] := fetch_of_lt hi
    exact ⟨ids[i], ids[i], hid, hid, List.getElem_mem hi, rfl⟩
  | compact ids =>
    have hid : fetch ids i = .ok ids[i] := fetch_of_lt hi
    exact ⟨ids[i], i, hid, rfl, mem_targets_compact.2 hi, by rw [slotValue, hid, ok_bind]⟩

theorem holds_of_filled (h : Filled dim (s.slotValue val) (· ∈ s.targets) buf out) :
    s.Holds dim val buf out where
  length_eq := h.length_eq
  slot i hi := by
    obtain ⟨e, k, he, hk, hmem, hvalue⟩ := exists_source val hi
    obtain ⟨v, hv, hslot⟩ := h.slot k hmem
    exact ⟨e, k, v, he, hk, hvalue ▸ hv, hslot⟩
  frame j hj := h.frame j fun k hk => by
    obtain ⟨i, hi, htarget⟩ := mem_targets_iff.1 hk
    exact hj i hi k htarget

/-- The slot of a selected entity. -/
theorem Holds.slot_eq (h : s.Holds dim val buf out) {i e k : Nat} (hi : i < s.length)
    (he : s.source i = .ok e) (hk : s.target i = .ok k) :
    ∃ v, val e = .ok v ∧ slice out (dim * k) (dim * (k + 1)) = .ok v := by
  obtain ⟨e', k', v, he', hk', hv, hslot⟩ := h.slot i hi
  cases he.symm.trans he'
  cases hk.symm.trans hk'
  exact ⟨v, hv, hslot⟩

end Selection

variable {R : Type}

/-! ## Evaluation entity by entity -/

/-- An evaluator for a mesh and a level, with any threshold and any schedule. -/
structure BulkEvaluator.For (ev : BulkEvaluator R) (m : MeshTables R) (level : Level) : Prop where
  mesh_eq : ev.mesh = m
  quadrature_eq : ev.settings.quadrature = level
  valid : ev.schedule.Valid

/-- A call that fills the slots of its selection with the values of the entities, and succeeds as
soon as the buffer has room for values that exist. -/
structure Entrywise (m : MeshTables R) (level : Level) (dim : Nat)
    (val : Nat → Except Breach (List R)) (run : BulkEvaluator R → Selection → Fill R Unit) :
    Prop where
  length_eq : ∀ e v, val e = .ok v → v.length = dim
  filled : ∀ ev : BulkEvaluator R, ev.For m level → ∀ s buf out, run ev s buf = .ok () out →
    Filled dim (s.slotValue val) (· ∈ s.targets) buf out
  exists_eq_ok : ∀ ev : BulkEvaluator R, ev.For m level → ∀ s buf, dim ≠ 0 → 0 < s.length →
    s.Fits dim buf → (∀ e ∈ s.entities, ∃ v, val e = .ok v) → ∃ out, run ev s buf = .ok () out

namespace Entrywise

variable {m : MeshTables R} {level : Level} {dim : Nat} {val : Nat → Except Breach (List R)}
  {run : BulkEvaluator R → Selection → Fill R Unit}

/-- A routine that fills single slots, run over the selection. -/
theorem of_writes {f : Nat → List R → Except Breach (List R)} (hf : Writes dim f val)
    (hrun : ∀ ev : BulkEvaluator R, ev.For m level → ∀ s buf,
      run ev s buf = Fill.ofUpdate (ev.forEach dim f s) buf) : Entrywise m level dim val run where
  length_eq := hf.length_eq
  filled ev hev s buf out h := by
    rw [hrun ev hev, Fill.ofUpdate_eq_ok] at h
    exact hf.filled_parForEach hev.valid.order_perm h
  exists_eq_ok ev hev s buf hdim _ hfits hs := by
    obtain ⟨out, hout⟩ := hf.exists_parForEach hev.valid.order_perm hdim hfits hs
    exact ⟨out, by rw [hrun ev hev, Fill.ofUpdate_eq_ok, BulkEvaluator.forEach, hout]⟩

theorem congr {run' : BulkEvaluator R → Selection → Fill R Unit} (h : Entrywise m level dim val run)
    (hrun : ∀ ev : BulkEvaluator R, ev.For m level → ∀ s, run' ev s = run ev s) :
    Entrywise m level dim val run' where
  length_eq := h.length_eq
  filled ev hev s buf out hout := h.filled ev hev s buf out (by rwa [← hrun ev hev])
  exists_eq_ok ev hev s buf := by
    rw [hrun ev hev]
    exact h.exists_eq_ok ev hev s buf

/-- A call that never has a result, and no values either. -/
theorem of_error (dim : Nat) (fault : Fault) (hrun : ∀ ev s buf, run ev s buf = .error fault buf) :
    Entrywise m level dim (fun _ => .error .outOfRange) run where
  length_eq e v h := by cases h
  filled ev _ s buf out h := by
    rw [hrun] at h
    cases h
  exists_eq_ok ev _ s buf _ hpos _ hs := by
    rw [← length_entities] at hpos
    obtain ⟨v, hv⟩ := hs _ (List.getElem_mem hpos)
    cases hv

/-- A function at the points that a mesh lists for its entities. -/
theorem of_functionAt {f : SpaceTimeFunction R} {t : R} (points : MeshTables R → List (Vec3 R))
    (hrun : ∀ ev s buf, run ev s buf = Fill.ofUpdate (ev.functionAt (points ev.mesh) f s t) buf) :
    Entrywise m level f.dim (f.componentsAt t (points m)) run where
  length_eq _ _ := SpaceTimeFunction.length_componentsAt
  filled ev hev s buf out h := by
    rw [hrun, Fill.ofUpdate_eq_ok, hev.mesh_eq] at h
    exact BulkEvaluator.filled_functionAt hev.valid h
  exists_eq_ok ev hev s buf hdim _ hfits hs := by
    obtain ⟨out, hout⟩ := BulkEvaluator.exists_functionAt hev.valid hdim hfits hs
    exact ⟨out, by rw [hrun, Fill.ofUpdate_eq_ok, hev.mesh_eq, hout]⟩

end Entrywise

/-- A call that puts the value `v` wherever entity `e` is selected, for selections of entities with
values. -/
structure PutsValue (HasValue : Nat → Prop) (dim : Nat) (run : Selection → Fill R Unit) (e : Nat)
    (v : List R) : Prop where
  /-- The call succeeds if all selected entities have values and the buffer has room for them. -/
  exists_eq_ok : ∀ s buf, 0 < s.length → (∀ e' ∈ s.entities, HasValue e') → s.Fits dim buf →
    ∃ out, run s buf = .ok () out
  /-- A call with a result has put the value into the slots of the entity. -/
  slot_eq : ∀ s buf out, run s buf = .ok () out → ∀ i < s.length, s.source i = .ok e →
    ∀ k, s.target i = .ok k → slice out (dim * k) (dim * (k + 1)) = .ok v

theorem Entrywise.putsValue {m : MeshTables R} {level : Level} {dim : Nat}
    {val : Nat → Except Breach (List R)} {run : BulkEvaluator R → Selection → Fill R Unit}
    (h : Entrywise m level dim val run) {ev : BulkEvaluator R} (hev : ev.For m level)
    (hdim : dim ≠ 0) {HasValue : Nat → Prop} (hval : ∀ e, HasValue e → ∃ v, val e = .ok v)
    {e : Nat} {v : List R} (hv : val e = .ok v) : PutsValue HasValue dim (run ev) e v where
  exists_eq_ok s buf hpos hs hfits :=
    h.exists_eq_ok ev hev s buf hdim hpos hfits fun e' he' => hval e' (hs e' he')
  slot_eq s buf out hout i hi he k hk := by
    have hholds := holds_of_filled (h.filled ev hev s buf out hout)
    obtain ⟨w, hw, hslot⟩ := hholds.slot_eq hi he hk
    cases hv.symm.trans hw
    exact hslot

variable [Scalar R]

/-! ## The calls -/

/-- The calls that evaluate a quantity for the entities of a selection. -/
inductive BulkCall (R : Type)
  | constant (v : Value R)
  | functionAtCells (f : SpaceTimeFunction R) (t : R)
  | functionAtVertices (f : SpaceTimeFunction R) (t : R)
  | functionAtBoundaryFaces (f : SpaceTimeFunction R) (t : R)
  | boundaryAverage (q : Quantity R) (t : R)
  | boundaryAverageOfFunction (f : SpaceTimeFunction R) (t : R) (level : Level)
  | arrayAtCells (a : ValueArray R)
  | arrayAtVertices (a : ValueArray R)
  | fieldAtCells (f : ValueField R)
  | fieldAtVertices (f : ValueField R)
  | evaluate (q : Quantity R) (target : Support) (t : R)

namespace BulkCall

/-- Run a call for a selection. -/
def run : BulkCall R → BulkEvaluator R → Selection → Fill R Unit
  | constant v, ev, s => .ofUpdate (ev.constant v s)
  | functionAtCells f t, ev, s => .ofUpdate (ev.functionAtCells f s t)
  | functionAtVertices f t, ev, s => .ofUpdate (ev.functionAtVertices f s t)
  | functionAtBoundaryFaces f t, ev, s => .ofUpdate (ev.functionAtBoundaryFaces f s t)
  | boundaryAverage q t, ev, s => ev.boundaryAverage q s t
  | boundaryAverageOfFunction f t level, ev, s => ev.boundaryAverageOfFunction f s t level
  | arrayAtCells a, ev, s => ev.arrayAtCells a s
  | arrayAtVertices a, ev, s => ev.arrayAtVertices a s
  | fieldAtCells f, ev, s => ev.fieldAtCells f s
  | fieldAtVertices f, ev, s => ev.fieldAtVertices f s
  | evaluate q target t, ev, s => ev.evaluate q target s t

/-- The number of components of the quantity that a call evaluates. -/
def dim : BulkCall R → Nat
  | constant v => v.dim
  | functionAtCells f _ | functionAtVertices f _ | functionAtBoundaryFaces f _ => f.dim
  | boundaryAverageOfFunction f _ _ => f.dim
  | arrayAtCells a | arrayAtVertices a => a.dim
  | fieldAtCells f | fieldAtVertices f => f.dim
  | boundaryAverage q _ | evaluate q _ _ => q.dim

/-- An evaluation that does not interpolate vectors to all vertices, which gathers over the
cells and does not work vertex by vertex. -/
def IsDirect : BulkCall R → Prop
  | evaluate ⟨_, .array a⟩ .vertex _ => a.location ≠ .cell ∧ a.location ≠ .dualFaceByCell
  | _ => True

variable {m : MeshTables R} {level : Level}

theorem entrywise_constant (v : Value R) :
    Entrywise m level v.dim (fun _ => .ok v.components) (constant v).run :=
  .of_writes (writes_writeTo v) fun _ _ _ _ => rfl

theorem entrywise_functionAtCells (f : SpaceTimeFunction R) (t : R) :
    Entrywise m level f.dim (f.componentsAt t m.cellCenters) (functionAtCells f t).run :=
  .of_functionAt (·.cellCenters) fun _ _ _ => rfl

theorem entrywise_functionAtVertices (f : SpaceTimeFunction R) (t : R) :
    Entrywise m level f.dim (f.componentsAt t m.vertexPoints) (functionAtVertices f t).run :=
  .of_functionAt (·.vertexPoints) fun _ _ _ => rfl

theorem entrywise_functionAtBoundaryFaces (f : SpaceTimeFunction R) (t : R) :
    Entrywise m level f.dim (f.componentsAt t m.boundaryFaceCenters)
      (functionAtBoundaryFaces f t).run :=
  .of_functionAt (·.boundaryFaceCenters) fun _ _ _ => rfl

theorem entrywise_boundaryAverageOfFunction (f : SpaceTimeFunction R) (t : R) {l : Level}
    {rule : SimplexRule R 3} (hrule : SimplexRule.triangleFor l f.dim = .ok rule) :
    Entrywise m level f.dim (m.boundaryMean f t rule) (boundaryAverageOfFunction f t l).run := by
  have hwrites := BulkEvaluator.writes_boundaryMean ⟨m, .default, .sequential⟩ f t rule
  refine .of_writes hwrites fun ev hev s buf => ?_
  obtain rfl := hev.mesh_eq
  exact Fill.lift_bind hrule _ buf

theorem exists_entrywise_boundaryAverageOfFunction (f : SpaceTimeFunction R) (t : R) (l : Level) :
    ∃ val, Entrywise m level f.dim val (boundaryAverageOfFunction f t l).run := by
  cases hrule : (SimplexRule.triangleFor l f.dim : Except Fault (SimplexRule R 3)) with
  | error fault =>
    refine ⟨_, .of_error f.dim fault fun ev s buf => ?_⟩
    show ((liftM (SimplexRule.triangleFor l f.dim) : Fill R _) >>= fun rule =>
      Fill.ofUpdate (ev.forEach f.dim (ev.averageFunctionOn f t rule) s)) buf = _
    rw [hrule]
    rfl
  | ok rule => exact ⟨_, entrywise_boundaryAverageOfFunction f t hrule⟩

theorem exists_entrywise_boundaryAverage (q : Quantity R) (t : R) :
    ∃ val, Entrywise m level q.dim val (boundaryAverage q t).run := by
  obtain ⟨support, source⟩ := q
  cases source with
  | constant v => exact ⟨_, entrywise_constant v⟩
  | function f =>
    -- the level of the settings is the same for all evaluators
    obtain ⟨val, h⟩ := exists_entrywise_boundaryAverageOfFunction (m := m) f t level
    refine ⟨val, h.congr fun ev hev s => ?_⟩
    rw [← hev.quadrature_eq]
    rfl
  | array a => exact ⟨_, .of_error _ _ fun _ _ _ => rfl⟩
  | field f => exact ⟨_, .of_error _ _ fun _ _ _ => rfl⟩

section ArrayAtCells

variable {a : ValueArray R} (hindex : a.requireIndex = .ok ())

include hindex

theorem entrywise_arrayAtCells_cell (hloc : a.location = .cell) :
    Entrywise m level a.dim a.entity (arrayAtCells a).run := by
  have hdim : a.dim = a.stride := by rw [ValueArray.dim, hloc]
  rw [hdim]
  refine .of_writes a.writes_entity fun ev _ s buf => ?_
  simp only [run, BulkEvaluator.arrayAtCells, hloc, Fill.check_bind hindex]

theorem entrywise_arrayAtCells_vertex (hloc : a.location = .vertex) :
    Entrywise m level a.dim (m.vertexAverage a.values a.stride) (arrayAtCells a).run := by
  have hdim : a.dim = a.stride := by rw [ValueArray.dim, hloc]
  rw [hdim]
  refine .of_writes (m.writes_vertexAverage a.values a.stride) fun ev hev s buf => ?_
  simp only [run, BulkEvaluator.arrayAtCells, hloc, Fill.check_bind hindex, hev.mesh_eq]

theorem entrywise_arrayAtCells_dualFace (hloc : a.location = .dualFaceByCell) :
    Entrywise m level a.dim (m.fluxVector a) (arrayAtCells a).run := by
  have hdim : a.dim = 3 := by rw [ValueArray.dim, hloc]
  rw [hdim]
  refine .of_writes (m.writes_fluxVector a) fun ev hev s buf => ?_
  simp only [run, BulkEvaluator.arrayAtCells, hloc, Fill.check_bind hindex, hev.mesh_eq]

end ArrayAtCells

theorem exists_entrywise_arrayAtCells (a : ValueArray R) :
    ∃ val, Entrywise m level a.dim val (arrayAtCells a).run := by
  cases hindex : a.requireIndex with
  | error b => exact ⟨_, .of_error _ (.breached b) fun ev s buf => Fill.check_bind_error hindex⟩
  | ok _ =>
    cases hloc : a.location with
    | cell => exact ⟨_, entrywise_arrayAtCells_cell hindex hloc⟩
    | vertex => exact ⟨_, entrywise_arrayAtCells_vertex hindex hloc⟩
    | dualFaceByCell => exact ⟨_, entrywise_arrayAtCells_dualFace hindex hloc⟩
    | _ =>
      refine ⟨_, .of_error _ (.refused (.unsupportedSupport .arrayAtCells a.location))
        fun ev s buf => ?_⟩
      simp only [run, BulkEvaluator.arrayAtCells, hloc, Fill.check_bind hindex]
      rfl

theorem exists_entrywise_arrayAtVertices (a : ValueArray R) :
    ∃ val, Entrywise m level a.dim val (arrayAtVertices a).run := by
  by_cases hloc : a.location = .vertex
  · have hdim : a.dim = a.stride := by rw [ValueArray.dim, hloc]
    rw [hdim]
    refine ⟨_, .of_writes a.writes_entity fun ev _ s buf => ?_⟩
    rw [run, BulkEvaluator.arrayAtVertices, if_pos hloc]
  · refine ⟨_, .of_error _ (.refused (.unsupportedSupport .arrayAtVertices a.location))
      fun ev s buf => ?_⟩
    rw [run, BulkEvaluator.arrayAtVertices, if_neg hloc]
    rfl

theorem entrywise_fieldAtCells_cell {f : ValueField R} (hloc : f.location = .cell) :
    Entrywise m level f.dim f.entity (fieldAtCells f).run := by
  refine .of_writes f.writes_entity fun ev _ s buf => ?_
  simp only [run, BulkEvaluator.fieldAtCells, hloc]

theorem entrywise_fieldAtCells_vertex {f : ValueField R} (hloc : f.location = .vertex) :
    Entrywise m level f.dim (m.vertexAverage f.values f.dim) (fieldAtCells f).run := by
  refine .of_writes (m.writes_vertexAverage f.values f.dim) fun ev hev s buf => ?_
  simp only [run, BulkEvaluator.fieldAtCells, hloc, hev.mesh_eq]

theorem exists_entrywise_fieldAtCells (f : ValueField R) :
    ∃ val, Entrywise m level f.dim val (fieldAtCells f).run := by
  cases hloc : f.location with
  | cell => exact ⟨_, entrywise_fieldAtCells_cell hloc⟩
  | vertex => exact ⟨_, entrywise_fieldAtCells_vertex hloc⟩
  | _ =>
    refine ⟨_, .of_error _ (.refused (.unsupportedSupport .fieldAtCells f.location))
      fun ev s buf => ?_⟩
    simp only [run, BulkEvaluator.fieldAtCells, hloc]
    rfl

theorem exists_entrywise_fieldAtVertices (f : ValueField R) :
    ∃ val, Entrywise m level f.dim val (fieldAtVertices f).run := by
  by_cases hloc : f.location = .vertex
  · refine ⟨_, .of_writes f.writes_entity fun ev _ s buf => ?_⟩
    rw [run, BulkEvaluator.fieldAtVertices, if_pos hloc]
  · refine ⟨_, .of_error _ (.refused (.unsupportedSupport .fieldAtVertices f.location))
      fun ev s buf => ?_⟩
    rw [run, BulkEvaluator.fieldAtVertices, if_neg hloc]
    rfl

/-- Evaluation of a quantity is one of the other calls, or refused. -/
theorem exists_entrywise_evaluate {q : Quantity R} {target : Support} {t : R}
    (h : (evaluate q target t).IsDirect) :
    ∃ val, Entrywise m level q.dim val (evaluate q target t).run := by
  obtain ⟨support, source⟩ := q
  cases source with
  | constant v => cases target <;> exact ⟨_, entrywise_constant v⟩
  | function f =>
    cases target with
    | cell => exact ⟨_, entrywise_functionAtCells f t⟩
    | vertex => exact ⟨_, entrywise_functionAtVertices f t⟩
    | boundaryFace => exact ⟨_, entrywise_functionAtBoundaryFaces f t⟩
    | _ => exact ⟨_, .of_error _ _ fun _ _ _ => rfl⟩
  | array a =>
    cases target with
    | cell => exact exists_entrywise_arrayAtCells a
    | vertex =>
      obtain ⟨val, hval⟩ := exists_entrywise_arrayAtVertices a
      refine ⟨val, hval.congr fun ev _ s => ?_⟩
      obtain ⟨hcell, hdual⟩ := h
      cases hloc : a.location with
      | cell => exact absurd hloc hcell
      | dualFaceByCell => exact absurd hloc hdual
      | _ => simp only [run, BulkEvaluator.evaluate, hloc]
    | _ => exact ⟨_, .of_error _ _ fun _ _ _ => rfl⟩
  | field f =>
    cases target with
    | cell => exact exists_entrywise_fieldAtCells f
    | vertex => exact exists_entrywise_fieldAtVertices f
    | _ => exact ⟨_, .of_error _ _ fun _ _ _ => rfl⟩

/-- **Every call works entity by entity**, with values that the mesh and the level determine. -/
theorem exists_entrywise (m : MeshTables R) (level : Level) {call : BulkCall R}
    (h : call.IsDirect) : ∃ val, Entrywise m level call.dim val call.run := by
  cases call with
  | constant v => exact ⟨_, entrywise_constant v⟩
  | functionAtCells f t => exact ⟨_, entrywise_functionAtCells f t⟩
  | functionAtVertices f t => exact ⟨_, entrywise_functionAtVertices f t⟩
  | functionAtBoundaryFaces f t => exact ⟨_, entrywise_functionAtBoundaryFaces f t⟩
  | boundaryAverage q t => exact exists_entrywise_boundaryAverage q t
  | boundaryAverageOfFunction f t l => exact exists_entrywise_boundaryAverageOfFunction f t l
  | arrayAtCells a => exact exists_entrywise_arrayAtCells a
  | arrayAtVertices a => exact exists_entrywise_arrayAtVertices a
  | fieldAtCells f => exact exists_entrywise_fieldAtCells f
  | fieldAtVertices f => exact exists_entrywise_fieldAtVertices f
  | evaluate q target t => exact exists_entrywise_evaluate h

/-- **The threshold and the schedule do not show**: a call that has a result has the same one for
every evaluator of the mesh and the level. -/
theorem run_unique {call : BulkCall R} (h : call.IsDirect) {ev₁ ev₂ : BulkEvaluator R}
    (hev₁ : ev₁.For m level) (hev₂ : ev₂.For m level) {s : Selection} {buf out₁ out₂ : Buffer R}
    (h₁ : call.run ev₁ s buf = .ok () out₁) (h₂ : call.run ev₂ s buf = .ok () out₂) :
    out₁ = out₂ := by
  obtain ⟨val, hcall⟩ := exists_entrywise m level h
  exact (hcall.filled ev₁ hev₁ s buf out₁ h₁).unique (hcall.filled ev₂ hev₂ s buf out₂ h₂)

/-! ## The contract -/

/-- What a call has to do with its output, given the values of the entities: fill the slots of its
selection and nothing else, whatever the threshold, the schedule and the old contents. -/
structure Contract (call : BulkCall R) (m : MeshTables R) (level : Level)
    (val : Nat → Except Breach (List R)) : Prop where
  /-- A value has the components of the quantity. -/
  length_eq : ∀ e v, val e = .ok v → v.length = call.dim
  /-- A call with a result has filled its slots. -/
  holds : ∀ ev : BulkEvaluator R, ev.For m level → ∀ s buf out, call.run ev s buf = .ok () out →
    s.Holds call.dim val buf out
  /-- A call has a result if all values exist and the buffer has room for them. -/
  exists_eq_ok : ∀ ev : BulkEvaluator R, ev.For m level → ∀ s buf, 1 ≤ call.dim → 0 < s.length →
    s.Fits call.dim buf → (∀ e ∈ s.entities, ∃ v, val e = .ok v) →
      ∃ out, call.run ev s buf = .ok () out
  /-- An entity has the same values in all outputs: slot `i` of `compact ids` is slot `ids[i]` of
  `scattered ids`, and of `all n`. -/
  agree : ∀ ev₁ ev₂ : BulkEvaluator R, ev₁.For m level → ev₂.For m level →
    ∀ s₁ s₂ buf₁ buf₂ out₁ out₂, call.run ev₁ s₁ buf₁ = .ok () out₁ →
      call.run ev₂ s₂ buf₂ = .ok () out₂ → ∀ i₁ < s₁.length, ∀ i₂ < s₂.length, ∀ e k₁ k₂,
        s₁.source i₁ = .ok e → s₂.source i₂ = .ok e → s₁.target i₁ = .ok k₁ →
          s₂.target i₂ = .ok k₂ → ∃ v, slice out₁ (call.dim * k₁) (call.dim * (k₁ + 1)) = .ok v ∧
            slice out₂ (call.dim * k₂) (call.dim * (k₂ + 1)) = .ok v

/-- **Addressing of bulk evaluation.**  Every call has values of its entities that depend on the
mesh and the level alone, and puts them where its selection says. -/
theorem addressing (m : MeshTables R) (level : Level) (call : BulkCall R) (h : call.IsDirect) :
    ∃ val, call.Contract m level val := by
  obtain ⟨val, hcall⟩ := exists_entrywise m level h
  have hholds : ∀ ev : BulkEvaluator R, ev.For m level → ∀ s buf out,
      call.run ev s buf = .ok () out → s.Holds call.dim val buf out := fun ev hev s buf out hout =>
    holds_of_filled (hcall.filled ev hev s buf out hout)
  refine ⟨val, hcall.length_eq, hholds, fun ev hev s buf hdim => ?_, ?_⟩
  · exact hcall.exists_eq_ok ev hev s buf (Nat.ne_of_gt hdim)
  · intro ev₁ ev₂ hev₁ hev₂ s₁ s₂ buf₁ buf₂ out₁ out₂ h₁ h₂ i₁ hi₁ i₂ hi₂ e k₁ k₂ he₁ he₂ hk₁ hk₂
    have hslot₁ := (hholds ev₁ hev₁ s₁ buf₁ out₁ h₁).slot_eq hi₁ he₁ hk₁
    have hslot₂ := (hholds ev₂ hev₂ s₂ buf₂ out₂ h₂).slot_eq hi₂ he₂ hk₂
    obtain ⟨v, hv, hslot₁⟩ := hslot₁
    obtain ⟨v', hv', hslot₂⟩ := hslot₂
    cases hv.symm.trans hv'
    exact ⟨v, hslot₁, hslot₂⟩

/-- Two values at each vertex, copied in reverse order for some vertices, one of them twice. -/
theorem addressing_unitMesh :
    ∃ (call : BulkCall ℝ) (ev : BulkEvaluator ℝ) (val : Nat → Except Breach (List ℝ)),
      call = .evaluate ⟨.vertex, .array ⟨[1, 2, 3, 4, 5, 6], 2, .vertex, none⟩⟩ .vertex 0 ∧
      ev = ⟨Tetrahedron.unitMesh.toMeshTables, ⟨.bary, 2⟩,
        ⟨fun n => (List.range n).reverse, Schedule.sequential.reduction⟩⟩ ∧
      call.IsDirect ∧ ev.For Tetrahedron.unitMesh.toMeshTables .bary ∧
      call.run ev (.compact [2, 0, 2]) [7, 7, 7, 7, 7, 7, 7] = .ok () [5, 6, 1, 2, 5, 6, 7] ∧
      call.Contract Tetrahedron.unitMesh.toMeshTables .bary val ∧ val 2 = .ok [5, 6] := by
  have hdirect : (evaluate ⟨.vertex, .array ⟨[1, 2, 3, 4, 5, 6], 2, .vertex, none⟩⟩ .vertex 0 :
      BulkCall ℝ).IsDirect := ⟨by decide, by decide⟩
  obtain ⟨val, hval⟩ := addressing Tetrahedron.unitMesh.toMeshTables .bary _ hdirect
  have hev : BulkEvaluator.For (⟨Tetrahedron.unitMesh.toMeshTables, ⟨.bary, 2⟩,
      ⟨fun n => (List.range n).reverse, Schedule.sequential.reduction⟩⟩ : BulkEvaluator ℝ)
      Tetrahedron.unitMesh.toMeshTables .bary :=
    ⟨rfl, rfl, fun n => List.reverse_perm _, fun _ => rfl⟩
  refine ⟨_, _, val, rfl, rfl, hdirect, hev, rfl, hval, ?_⟩
  have hholds := hval.holds _ hev (.compact [2, 0, 2]) [7, 7, 7, 7, 7, 7, 7]
    [5, 6, 1, 2, 5, 6, 7] rfl
  obtain ⟨v, hv, hslot⟩ := hholds.slot_eq (i := 0) (e := 2) (k := 0) (by decide) rfl rfl
  rw [hv, ← hslot]
  rfl

end BulkCall

end Polyfield
