import Polyfield.Bulk.Evaluate
import Polyfield.Bulk.BoundaryAverage
import Polyfield.Proofs.AffineQuadrature
import Polyfield.Proofs.SlotContents

/-!
# Values of single entities

What a bulk evaluation writes for one entity.  Each routine that fills a slot writes values that
depend on the mesh and the entity alone (`Selection.Writes`), also where it adds up in the slot:
it then sets the slot to zero first, or adds up elsewhere.

* `SpaceTimeFunction.writes_componentsAt` : a function at the points of a list;
* `ValueArray.writes_entity`, `ValueField.writes_entity` : stored values;
* `MeshTables.writes_vertexAverage`, `MeshTables.writes_fluxVector` : reconstructed values;
* `BulkEvaluator.writes_boundaryMean` : means over boundary faces.
-/

namespace Polyfield

open Selection

variable {R : Type}

/-! ## Copied values -/

/-- Copying values of the length of a slot. -/
theorem writes_copyTo {dim : Nat} {val : Nat → Except Breach (List R)}
    (hval : ∀ e v, val e = .ok v → v.length = dim) :
    Writes dim (fun e slot => do copyTo (← val e) slot) val := by
  refine ⟨fun e slot hslot => ?_, hval⟩
  cases hv : val e with
  | error b => rfl
  | ok v => exact copyTo_eq_ok.2 ⟨hslot.trans (hval e v hv).symm, rfl⟩

theorem ValueArray.length_entity {a : ValueArray R} {e : Nat} {v : List R}
    (h : a.entity e = .ok v) : v.length = a.stride := by
  rw [length_of_slice_eq_ok h, Nat.mul_succ, Nat.add_sub_cancel_left]

theorem ValueField.length_entity {f : ValueField R} {e : Nat} {v : List R}
    (h : f.entity e = .ok v) : v.length = f.dim := by
  rw [length_of_slice_eq_ok h, Nat.mul_succ, Nat.add_sub_cancel_left]

theorem ValueArray.writes_entity (a : ValueArray R) :
    Writes a.stride (fun e slot => do copyTo (← a.entity e) slot) a.entity :=
  writes_copyTo fun _ _ => length_entity

theorem ValueField.writes_entity (f : ValueField R) :
    Writes f.dim (fun e slot => do copyTo (← f.entity e) slot) f.entity :=
  writes_copyTo fun _ _ => length_entity

namespace SpaceTimeFunction

/-- The components at one point of a list. -/
def componentsAt (f : SpaceTimeFunction R) (t : R) (points : List (Vec3 R)) (e : Nat) :
    Except Breach (List R) := do
  return f.components t (← fetch points e)

theorem length_componentsAt {f : SpaceTimeFunction R} {t : R} {points : List (Vec3 R)} {e : Nat}
    {v : List R} (h : f.componentsAt t points e = .ok v) : v.length = f.dim := by
  obtain ⟨x, -, hv⟩ := bind_eq_ok.1 h
  rw [← Except.ok.inj hv, length_components]

theorem writes_componentsAt (f : SpaceTimeFunction R) (t : R) (points : List (Vec3 R)) :
    Writes f.dim (fun e slot => do copyTo (f.components t (← fetch points e)) slot)
      (f.componentsAt t points) := by
  have hcopy : ∀ e slot, (do copyTo (f.components t (← fetch points e)) slot) =
      (do copyTo (← f.componentsAt t points e) slot) := fun e slot => by
    rw [componentsAt]
    cases fetch points e <;> rfl
  simp only [hcopy]
  exact writes_copyTo fun _ _ => length_componentsAt

end SpaceTimeFunction

/-! ## Reconstructed values -/

variable [Scalar R]

theorem length_weightedVertexSum {values : List R} {stride : Nat} {weighted : List (Nat × R)}
    {acc : List R} (h : weightedVertexSum values stride weighted = .ok acc) :
    acc.length = stride := by
  refine of_foldlM_eq_ok (P := fun acc : List R => acc.length = stride) (fun s p _ t hs ht => ?_)
    (List.length_replicate) h
  obtain ⟨vs, -, hvs⟩ := bind_eq_ok.1 ht
  rw [← Except.ok.inj hvs, length_addScaled, hs]

namespace MeshTables

/-- The average of vertex values over a cell, with its dual volumes as weights. -/
def vertexAverage (m : MeshTables R) (values : List R) (stride c : Nat) :
    Except Breach (List R) := do
  let acc ← weightedVertexSum values stride (← m.weightedVertices c)
  let scale := 1 / (← fetch m.cellVolumes c)
  return acc.map (· * scale)

theorem writes_vertexAverage (m : MeshTables R) (values : List R) (stride : Nat) :
    Writes stride (fun c => m.averageVertices c values stride)
      (m.vertexAverage values stride) := by
  refine ⟨fun c slot hslot => ?_, fun c v hv => ?_⟩
  · have hupdate : m.averageVertices c values stride slot =
        updateFirst stride (fun _ => m.vertexAverage values stride c) slot := rfl
    rw [hupdate]
    cases hv : m.vertexAverage values stride c with
    | error b =>
      rw [updateFirst, updateSlot, if_pos (by omega)]
      rfl
    | ok v =>
      refine updateFirst_eq_ok.2 ⟨Nat.le_of_eq hslot.symm, v, rfl, ?_⟩
      rw [← hslot, List.drop_length, List.append_nil]
  · obtain ⟨weighted, -, hv⟩ := bind_eq_ok.1 hv
    obtain ⟨acc, hacc, hv⟩ := bind_eq_ok.1 hv
    obtain ⟨volume, -, hv⟩ := bind_eq_ok.1 hv
    rw [← Except.ok.inj hv, List.length_map, length_weightedVertexSum hacc]

/-- The vector of the fluxes through the dual faces of a cell. -/
def fluxVector (m : MeshTables R) (a : ValueArray R) (c : Nat) : Except Breach (List R) := do
  return (← m.vectorOfFluxes c (← a.cellBlock c)).toList

theorem writes_fluxVector (m : MeshTables R) (a : ValueArray R) :
    Writes 3 (fun c slot => do m.writeVectorOfFluxes c (← a.cellBlock c) slot)
      (m.fluxVector a) := by
  refine ⟨fun c slot hslot => ?_, fun c v hv => ?_⟩
  · rw [fluxVector]
    cases a.cellBlock c with
    | error b => rfl
    | ok fluxes =>
      rw [ok_bind, ok_bind, writeVectorOfFluxes]
      cases m.vectorOfFluxes c fluxes with
      | error b => rfl
      | ok u =>
        rw [ok_bind, ok_bind, overwriteFirst_of_length hslot]
        rfl
  · obtain ⟨fluxes, -, hv⟩ := bind_eq_ok.1 hv
    obtain ⟨u, -, hv⟩ := bind_eq_ok.1 hv
    rw [← Except.ok.inj hv]
    rfl

/-- The mean of a function over a boundary face. -/
def boundaryMean (m : MeshTables R) (f : SpaceTimeFunction R) (t : R) (rule : SimplexRule R 3)
    (boundaryFace : Nat) : Except Breach (List R) := do
  let face ← fetch m.boundaryFaces boundaryFace
  let out ← rule.integrateAll t (← m.facePieces face) f (List.replicate f.dim 0)
  return scale (1 / (← fetch m.faceAreas face)) out

end MeshTables

theorem SimplexRule.length_integrateAll {n : Nat} {rule : SimplexRule R n} {t : R}
    {ss : List (Simplex R n)} {f : SpaceTimeFunction R} {buf out : Buffer R}
    (h : rule.integrateAll t ss f buf = .ok out) : out.length = buf.length := by
  refine of_foldlM_eq_ok (P := fun mid : Buffer R => mid.length = buf.length)
    (fun mid s _ next hmid hnext => ?_) rfl h
  obtain ⟨values, hvalues, -⟩ := bind_eq_ok.1 hnext
  obtain ⟨hdim, -⟩ := unit_bind_eq_ok.1 hvalues
  rw [integrate_eq_ok hdim] at hnext
  rw [← Except.ok.inj hnext, length_addIntegral, hmid]

namespace BulkEvaluator

theorem writes_boundaryMean (ev : BulkEvaluator R) (f : SpaceTimeFunction R) (t : R)
    (rule : SimplexRule R 3) :
    Writes f.dim (ev.averageFunctionOn f t rule) (ev.mesh.boundaryMean f t rule) := by
  refine ⟨fun bf slot hslot => ?_, fun bf v hv => ?_⟩
  · rw [averageFunctionOn, List.map_const', hslot]
    rfl
  · obtain ⟨face, -, hv⟩ := bind_eq_ok.1 hv
    obtain ⟨pieces, -, hv⟩ := bind_eq_ok.1 hv
    obtain ⟨out, hout, hv⟩ := bind_eq_ok.1 hv
    obtain ⟨area, -, hv⟩ := bind_eq_ok.1 hv
    rw [← Except.ok.inj hv, scale, List.length_map, SimplexRule.length_integrateAll hout,
      List.length_replicate]

end BulkEvaluator

end Polyfield
