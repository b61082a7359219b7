import Polyfield.Proofs.AccumulatingCalls

/-!
# Which part of a buffer a call changes

Calls on a cell keep to their part of the buffer.  Values, averages and reconstructions are put in
place of the first entries, whatever these held; integrals and split fluxes are added to the
entries that they reach.

* `Overwrites`, `Fill.Overwrites` : a routine that puts values in front of the rest of a buffer;
* `CellCall.overwrites_run` : the calls that do, with the number of values;
* `CellCall.buffer_parts` : all calls on a cell of a mesh.
-/

namespace Polyfield

open Selection

variable {R : Type}

/-! ## Overwriting -/

/-- A routine that puts `width` values in place of the first entries of a buffer, the same values
in every buffer that has room for them, unless it fails on every buffer. -/
def Overwrites (width : Nat) (f : Buffer R → Except Breach (Buffer R)) : Prop :=
  ∀ buf₀ out₀, f buf₀ = .ok out₀ → ∃ values : List R, values.length = width ∧
    ∀ buf : Buffer R, width ≤ buf.length → f buf = .ok (values ++ buf.drop width)

namespace Overwrites

variable {width dim : Nat}

theorem overwriteFirst (values : List R) :
    Overwrites values.length (Polyfield.overwriteFirst values) :=
  fun _ _ _ => ⟨values, rfl, fun _ hbuf => overwriteFirst_eq_ok hbuf⟩

/-- A step that does not look at the buffer, and then a routine. -/
theorem read {α : Type} {x : Except Breach α} {k : α → Buffer R → Except Breach (Buffer R)}
    (h : ∀ a, x = .ok a → Overwrites width (k a)) :
    Overwrites width fun buf => x >>= fun a => k a buf := by
  cases hx : x with
  | error b => exact nofun
  | ok a => exact h a hx

/-- A slot at the front, filled with values that do not depend on what it held. -/
theorem updateFirst {f : Nat → Buffer R → Except Breach (Buffer R)}
    {val : Nat → Except Breach (List R)} (h : Writes dim f val) (e : Nat) :
    Overwrites dim (Polyfield.updateFirst dim (f e)) := by
  intro buf₀ out₀ h₀
  obtain ⟨hbuf₀, values, hvalues, -⟩ := updateFirst_eq_ok.1 h₀
  rw [h.eq e _ (List.length_take_of_le hbuf₀)] at hvalues
  refine ⟨values, h.length_eq e _ hvalues, fun buf hbuf =>
    updateFirst_eq_ok.2 ⟨hbuf, values, ?_, rfl⟩⟩
  rw [h.eq e _ (List.length_take_of_le hbuf), hvalues]

/-- Consecutive slots, filled with values that do not depend on what they held. -/
theorem forEach_all {f : Nat → Buffer R → Except Breach (Buffer R)}
    {val : Nat → Except Breach (List R)} (h : Writes dim f val) (n : Nat) :
    Overwrites (dim * n) fun buf => (all n).forEach dim f buf := by
  intro buf₀ out₀ h₀
  obtain ⟨-, hdim, vs, hvs, -⟩ := (forEach_all_eq_ok h).1 h₀
  have hlen : ∀ v ∈ vs, v.length = dim := fun v hv => by
    obtain ⟨e, -, he⟩ := exists_of_mem_mapM hvs hv
    exact h.length_eq e v he
  refine ⟨vs.flatten, ?_, fun buf hbuf => (forEach_all_eq_ok h).2 ⟨hbuf, hdim, vs, hvs, rfl⟩⟩
  rw [length_flatten_of_forall hlen, length_of_mapM_eq_ok hvs, List.length_range]

theorem writeTo (v : Value R) : Overwrites v.dim v.writeTo := by
  rw [← v.length_components]
  exact overwriteFirst v.components

end Overwrites

/-- A routine that puts `width` values in place of the first entries of a buffer and answers the
same on every buffer that has room for them, unless it fails on every buffer. -/
def Fill.Overwrites {α : Type} (width : Nat) (m : Fill R α) : Prop :=
  ∀ buf₀ a out₀, m buf₀ = .ok a out₀ → ∃ values : List R, values.length = width ∧
    ∀ buf : Buffer R, width ≤ buf.length → m buf = .ok a (values ++ buf.drop width)

namespace Fill.Overwrites

variable {α β : Type} {width : Nat}

theorem of_ofUpdate {f : Buffer R → Except Breach (Buffer R)}
    (hf : Polyfield.Overwrites width f) : Overwrites width (ofUpdate f) := by
  intro buf₀ a out₀ h₀
  obtain ⟨values, hlen, hrun⟩ := hf _ _ (ofUpdate_eq_ok.1 h₀)
  exact ⟨values, hlen, fun buf hbuf => ofUpdate_eq_ok.2 (hrun buf hbuf)⟩

theorem of_refuse (r : Refusal) : Overwrites width (liftM (refuse r : Except Fault α) : Fill R α) :=
  nofun

theorem of_pure (a : α) : Overwrites 0 (pure a : Fill R α) := by
  intro buf₀ b out₀ h₀
  cases h₀
  exact ⟨[], rfl, fun _ _ => rfl⟩

/-- A step that only reads, in front of a routine. -/
theorem lift_bind {x : Except Fault α} {k : α → Fill R β}
    (hk : ∀ a, x = .ok a → Overwrites width (k a)) :
    Overwrites width ((liftM x : Fill R α) >>= k) := by
  cases hx : x with
  | error e => exact nofun
  | ok a => exact hk a hx

/-- What a routine answers does not matter for the buffer. -/
theorem map {m : Fill R α} (hm : Overwrites width m) (g : α → β) :
    Overwrites width (m >>= fun a => pure (g a)) := by
  intro buf₀ b out₀ h₀
  cases hrun₀ : m buf₀ with
  | error e out =>
    rw [bind_of_run_error hrun₀] at h₀
    cases h₀
  | ok a out =>
    rw [bind_of_run_ok hrun₀] at h₀
    cases h₀
    obtain ⟨values, hlen, hrun⟩ := hm _ _ _ hrun₀
    exact ⟨values, hlen, fun buf hbuf => bind_of_run_ok (hrun buf hbuf)⟩

theorem done {m : Fill R Unit} (hm : Overwrites width m) : Overwrites width m.done :=
  hm.map fun _ => Answer.done

/-- A routine that is run on the first entries alone. -/
theorem onFirst {m : Fill R α} (hm : Overwrites width m) :
    Overwrites width (Fill.onFirst width m) := by
  intro buf₀ a out₀ h₀
  unfold Fill.onFirst at h₀
  split at h₀
  · cases hrun₀ : m (buf₀.take width) with
    | error e out =>
      rw [hrun₀] at h₀
      cases h₀
    | ok b out =>
      rw [hrun₀] at h₀
      cases h₀
      obtain ⟨values, hlen, hrun⟩ := hm _ _ _ hrun₀
      refine ⟨values, hlen, fun buf hbuf => ?_⟩
      have htake : (buf.take width).length = width := List.length_take_of_le hbuf
      have hall : (buf.take width).drop width = [] := List.drop_eq_nil_of_le htake.le
      rw [Fill.onFirst, if_pos hbuf, hrun _ htake.ge, hall, List.append_nil]
  · cases h₀

/-- A routine that only returns something leaves the buffer alone. -/
theorem returning (f : α → Answer R) (x : Except Fault α) : Overwrites 0 (Fill.returning f x) :=
  lift_bind fun _ _ => of_pure _

end Fill.Overwrites

/-! ## Values -/

variable [Scalar R]

namespace SpaceTimeFunction

omit [Scalar R] in
theorem overwrites_evaluate (f : SpaceTimeFunction R) (t : R) (points : List (Vec3 R)) (n : Nat) :
    Overwrites (f.dim * n) (f.evaluate t points (.all n)) :=
  Overwrites.forEach_all (f.writes_componentsAt t points) n

end SpaceTimeFunction

theorem overwrites_weightedVertexSum (values : List R) (stride : Nat) (weighted : List (Nat × R)) :
    Overwrites stride (updateFirst stride fun _ => weightedVertexSum values stride weighted) :=
  Overwrites.updateFirst (f := fun _ _ => weightedVertexSum values stride weighted)
    ⟨fun _ _ _ => rfl, fun _ _ => length_weightedVertexSum⟩ 0

namespace CellCache

variable (cm : CellCache R)

theorem overwrites_averageVertices (values : List R) (stride : Nat) :
    Overwrites stride (cm.averageVertices values stride) :=
  Overwrites.read fun _ _ => overwrites_weightedVertexSum values stride _

theorem overwrites_writeVectorOfFluxes (fluxes : List R) :
    Overwrites 3 (cm.writeVectorOfFluxes fluxes) :=
  Overwrites.read fun _ _ => Overwrites.overwriteFirst (cm.vectorOfFluxes fluxes).toList

theorem overwrites_arrayValue (a : ValueArray R) : Fill.Overwrites a.dim (cm.arrayValue a) := by
  unfold arrayValue ValueArray.dim
  cases a.location with
  | cell => exact .of_ofUpdate (Overwrites.updateFirst a.writes_entity cm.cell)
  | vertex => exact .of_ofUpdate (cm.overwrites_averageVertices a.values a.stride)
  | dualFaceByCell =>
    exact .of_ofUpdate (Overwrites.read fun fluxes _ => cm.overwrites_writeVectorOfFluxes fluxes)
  | face => exact .of_refuse _
  | boundaryFace => exact .of_refuse _

theorem overwrites_fieldValue (f : ValueField R) : Fill.Overwrites f.dim (cm.fieldValue f) := by
  unfold fieldValue
  cases f.location with
  | cell => exact .of_ofUpdate (Overwrites.updateFirst f.writes_entity cm.cell)
  | vertex => exact .of_ofUpdate (cm.overwrites_averageVertices f.values f.dim)
  | dualFaceByCell => exact .of_refuse _
  | face => exact .of_refuse _
  | boundaryFace => exact .of_refuse _

omit [Scalar R] in
theorem overwrites_functionAtCenter (f : SpaceTimeFunction R) (t : R) :
    Overwrites f.dim (cm.functionAtCenter f t) := by
  have h := f.overwrites_evaluate t [cm.center] 1
  rwa [Nat.mul_one] at h

theorem overwrites_value (q : Quantity R) (t : R) : Fill.Overwrites q.dim (cm.value q t) := by
  unfold value Quantity.dim
  cases q.source with
  | constant v => exact .of_ofUpdate (Overwrites.writeTo v)
  | function f => exact .of_ofUpdate (cm.overwrites_functionAtCenter f t)
  | array a => exact cm.overwrites_arrayValue a
  | field f => exact cm.overwrites_fieldValue f

/-! ## Values at points -/

omit [Scalar R] in
theorem repeatFirstPoint_eq_ok {dim n : Nat} (hn : n ≠ 0) {values : List R}
    (hlen : values.length = dim) {buf : Buffer R} (hbuf : dim * n ≤ buf.length) :
    repeatFirstPoint dim n (values ++ buf.drop dim) =
      .ok ((List.replicate n values).flatten ++ buf.drop (dim * n)) := by
  have hle : dim ≤ dim * n := Nat.le_mul_of_pos_right dim (Nat.pos_of_ne_zero hn)
  have hfirst : ((values ++ buf.drop dim).take (dim * n)).take dim = values := by
    rw [List.take_take, Nat.min_eq_left hle, List.take_left' hlen]
  have hrest : (values ++ buf.drop dim).drop (dim * n) = buf.drop (dim * n) := by
    rw [List.drop_append, List.drop_eq_nil_of_le (by omega), List.drop_drop, List.nil_append,
      hlen, Nat.add_sub_cancel' hle]
  refine updateFirst_eq_ok.2 ⟨?_, _, ?_, congrArg _ hrest.symm⟩
  · rw [List.length_append, List.length_drop]
    omega
  · split
    · next hdim =>
      have hnil : values = [] := List.length_eq_zero_iff.1 (hlen.trans hdim)
      rw [hnil, hdim, Nat.zero_mul, List.take_zero, List.flatten_replicate_nil]
    · rw [hfirst]

omit [Scalar R] in
/-- The values of the first point are given to all points. -/
theorem overwrites_repeated {dim n : Nat} (hn : n ≠ 0) {m : Fill R Unit}
    (hm : Fill.Overwrites dim m) :
    Fill.Overwrites (dim * n) (do Fill.onFirst dim m; Fill.ofUpdate (repeatFirstPoint dim n)) := by
  intro buf₀ u out₀ h₀
  cases hrun₀ : Fill.onFirst dim m buf₀ with
  | error e out =>
    rw [Fill.bind_of_run_error hrun₀] at h₀
    cases h₀
  | ok u₀ mid₀ =>
    obtain ⟨values, hlen, hrun⟩ := hm.onFirst _ _ _ hrun₀
    have hle : dim ≤ dim * n := Nat.le_mul_of_pos_right dim (Nat.pos_of_ne_zero hn)
    refine ⟨(List.replicate n values).flatten, ?_, fun buf hbuf => ?_⟩
    · simp [hlen, Nat.mul_comm]
    · exact (Fill.bind_of_run_ok (hrun buf (hle.trans hbuf))).trans
        (Fill.ofUpdate_eq_ok.2 (repeatFirstPoint_eq_ok hn hlen hbuf))

theorem overwrites_arrayAtPoints (a : ValueArray R) (n : Nat) :
    Fill.Overwrites (a.dim * n) (cm.arrayAtPoints a n) := by
  unfold arrayAtPoints
  by_cases hn : n = 0
  · subst hn
    exact .of_pure ()
  · rw [if_neg hn]
    exact overwrites_repeated hn (cm.overwrites_arrayValue a)

theorem overwrites_fieldAtPoints (f : ValueField R) (n : Nat) :
    Fill.Overwrites (f.dim * n) (cm.fieldAtPoints f n) := by
  unfold fieldAtPoints
  by_cases hn : n = 0
  · subst hn
    exact .of_pure ()
  · rw [if_neg hn]
    exact overwrites_repeated hn (cm.overwrites_fieldValue f)

omit [Scalar R] in
theorem overwrites_constantAtPoints (v : Value R) (n : Nat) :
    Overwrites (v.dim * n) (constantAtPoints v n) :=
  Overwrites.forEach_all (writes_writeTo v) n

omit [Scalar R] in
theorem overwrites_functionAtPoints (f : SpaceTimeFunction R) (points : List (Vec3 R)) (t : R) :
    Overwrites (f.dim * points.length) (functionAtPoints f points t) :=
  f.overwrites_evaluate t points _

theorem overwrites_valueAtPoints (q : Quantity R) (points : List (Vec3 R)) (t : R) :
    Fill.Overwrites (q.dim * points.length) (cm.valueAtPoints q points t) := by
  unfold valueAtPoints Quantity.dim
  cases q.source with
  | constant v => exact .of_ofUpdate (overwrites_constantAtPoints v _)
  | function f => exact .of_ofUpdate (overwrites_functionAtPoints f points t)
  | array a => exact cm.overwrites_arrayAtPoints a _
  | field f => exact cm.overwrites_fieldAtPoints f _

theorem overwrites_vectorArrayAtPoints (a : ValueArray R) (n : Nat) :
    Fill.Overwrites (3 * n) (cm.vectorArrayAtPoints a n) := by
  unfold vectorArrayAtPoints
  by_cases h : a.location ≠ .dualFaceByCell ∧ a.stride ≠ 3
  · rw [if_pos h]
    exact .of_refuse _
  · have hdim : a.dim = 3 := by
      unfold ValueArray.dim
      split <;> simp_all
    rw [if_neg h, ← hdim]
    exact cm.overwrites_arrayAtPoints a n

theorem overwrites_vectorFieldAtPoints (f : ValueField R) (n : Nat) :
    Fill.Overwrites (3 * n) (cm.vectorFieldAtPoints f n) := by
  unfold vectorFieldAtPoints
  by_cases h : f.dim ≠ 3
  · rw [if_pos h]
    exact .of_refuse _
  · rw [if_neg h, ← not_not.1 h]
    exact cm.overwrites_fieldAtPoints f n

/-! ## Averages -/

theorem writes_averageFunctionOnFace (t : R) (func : SpaceTimeFunction R)
    (rule : SimplexRule R 3) :
    Writes func.dim (fun f => cm.averageFunctionOnFace f t func rule) fun f =>
      cm.averageFunctionOnFace f t func rule (List.replicate func.dim 0) := by
  refine ⟨fun f slot hslot => ?_, fun f v hv => ?_⟩
  · rw [averageFunctionOnFace, averageFunctionOnFace, List.map_const', List.map_const', hslot,
      List.length_replicate]
  · obtain ⟨out, hout, hv⟩ := bind_eq_ok.1 hv
    obtain ⟨face, -, hv⟩ := bind_eq_ok.1 hv
    have hlen := (cm.addsTo_integrateFace f t func rule).length_eq (by simp) hout
    rw [← Except.ok.inj hv, scale, List.length_map, hlen, List.length_map, List.length_replicate]

theorem writes_averageFunctionOnCell (t : R) (func : SpaceTimeFunction R)
    (rule : SimplexRule R 4) :
    Writes func.dim (fun _ => cm.averageFunctionOnCell t func rule) fun _ =>
      cm.averageFunctionOnCell t func rule (List.replicate func.dim 0) := by
  refine ⟨fun _ slot hslot => ?_, fun _ v hv => ?_⟩
  · rw [averageFunctionOnCell, averageFunctionOnCell, List.map_const', List.map_const', hslot,
      List.length_replicate]
  · obtain ⟨out, hout, hv⟩ := bind_eq_ok.1 hv
    have hlen := (cm.addsTo_integrateCell t func rule).length_eq (by simp) hout
    rw [← Except.ok.inj hv, scale, List.length_map, hlen, List.length_map, List.length_replicate]

theorem writes_averageFunctionOnAll (hfaces : cm.faces.length = cm.faceCount) (t : R)
    (func : SpaceTimeFunction R) (tetraRule : SimplexRule R 4) (triangleRule : SimplexRule R 3) :
    Writes (func.dim * (cm.faceCount + 1))
      (fun _ => cm.averageFunctionOnAll t func tetraRule triangleRule) fun _ =>
        cm.averageFunctionOnAll t func tetraRule triangleRule
          (List.replicate (func.dim * (cm.faceCount + 1)) 0) := by
  refine ⟨fun _ slot hslot => ?_, fun _ v hv => ?_⟩
  · rw [averageFunctionOnAll, averageFunctionOnAll, List.map_const', List.map_const', hslot,
      List.length_replicate]
  · obtain ⟨⟨cellInt, faceInt⟩, hints, hv⟩ := bind_eq_ok.1 hv
    have hzeros : ((List.replicate (func.dim * (cm.faceCount + 1)) (0 : R)).map fun _ =>
        (0 : R)).length = func.dim * cm.faceCount + func.dim := by
      rw [List.length_map, List.length_replicate, Nat.mul_succ]
    set zeros := (List.replicate (func.dim * (cm.faceCount + 1)) (0 : R)).map fun _ => (0 : R)
    have hcell : func.dim ≤ (zeros.drop (func.dim * cm.faceCount)).length := by
      rw [List.length_drop]
      omega
    have hface : func.dim * cm.faceCount ≤ (zeros.take (func.dim * cm.faceCount)).length := by
      rw [List.length_take]
      omega
    obtain ⟨hcellInt, hfaceInt⟩ := (cm.addsToBoth_integrateCellAndFaces t func tetraRule
      triangleRule).length_eq (zeros.drop _, zeros.take _) hcell hface hints
    have hmeans : ∀ mean ∈ List.zipWith (fun out (face : EntityGeometry R) =>
        scale (1 / face.measure) out) (blocks func.dim cm.faceCount faceInt) cm.faces,
        mean.length = func.dim := by
      intro mean hmean
      obtain ⟨k, hk, rfl⟩ := List.getElem_of_mem hmean
      rw [List.getElem_zipWith, scale, List.length_map]
      exact length_of_mem_blocks (hface.trans_eq hfaceInt.symm) (List.getElem_mem _)
    rw [← Except.ok.inj hv, List.length_append, length_flatten_of_forall hmeans,
      List.length_zipWith, length_blocks, hfaces, Nat.min_self, scale, List.length_map, hcellInt,
      List.length_drop, hzeros, Nat.add_sub_cancel_left, Nat.mul_succ]

theorem overwrites_faceAverage (q : Quantity R) (face : Nat) (t : R) (level : Level) :
    Fill.Overwrites q.dim (cm.faceAverage q face t level) := by
  unfold faceAverage Quantity.dim
  cases q.source with
  | constant v => exact .of_ofUpdate (Overwrites.writeTo v)
  | function f =>
    exact .lift_bind fun rule _ => .of_ofUpdate
      (Overwrites.updateFirst (cm.writes_averageFunctionOnFace t f rule) face)
  | array a => exact .of_refuse _
  | field f => exact .of_refuse _

theorem overwrites_cellAverage (q : Quantity R) (t : R) (level : Level) :
    Fill.Overwrites q.dim (cm.cellAverage q t level) := by
  unfold cellAverage Quantity.dim
  cases q.source with
  | constant v => exact .of_ofUpdate (Overwrites.writeTo v)
  | function f =>
    exact .lift_bind fun rule _ => .of_ofUpdate
      (Overwrites.updateFirst (cm.writes_averageFunctionOnCell t f rule) 0)
  | array a => exact .of_refuse _
  | field f => exact .of_refuse _

theorem overwrites_allAverages (hfaces : cm.faces.length = cm.faceCount) (q : Quantity R) (t : R)
    (level : Level) :
    Fill.Overwrites (q.dim * (cm.faceCount + 1)) (cm.allAverages q t level) := by
  unfold allAverages Quantity.dim
  cases q.source with
  | constant v => exact .of_ofUpdate (Overwrites.forEach_all (writes_writeTo v) _)
  | function f =>
    refine .lift_bind fun tetraRule _ => .lift_bind fun triangleRule _ => .of_ofUpdate ?_
    exact Overwrites.read fun _ _ => Overwrites.updateFirst
      (cm.writes_averageFunctionOnAll hfaces t f tetraRule triangleRule) 0
  | array a => exact .of_refuse _
  | field f => exact .of_refuse _

end CellCache

/-! ## Calls -/

namespace CellCall

/-- The number of entries in place of which a call puts its values. -/
def width (cm : CellCache R) : CellCall R → Nat
  | value q _ => q.dim
  | functionAtCenter f _ => f.dim
  | arrayValue a => a.dim
  | fieldValue f => f.dim
  | valueAtPoints q points _ => q.dim * points.length
  | arrayAtPoints a n => a.dim * n
  | fieldAtPoints f n => f.dim * n
  | vectorArrayAtPoints _ n | vectorFieldAtPoints _ n => 3 * n
  | faceAverage q .. | cellAverage q .. => q.dim
  | allAverages q .. => q.dim * (cm.faceCount + 1)
  | averageVertices _ stride => stride
  | writeVectorOfFluxes _ => 3
  | _ => 0

/-- **Calls that do not add to a buffer overwrite its first entries.** -/
theorem overwrites_run {cm : CellCache R} (hfaces : cm.faces.length = cm.faceCount)
    {call : CellCall R} (hcall : ¬call.Accumulates) :
    Fill.Overwrites (call.width cm) (call.run cm) := by
  cases call with
  | value q t => exact (cm.overwrites_value q t).done
  | functionAtCenter f t =>
    exact (Fill.Overwrites.of_ofUpdate (cm.overwrites_functionAtCenter f t)).done
  | arrayValue a => exact (cm.overwrites_arrayValue a).done
  | fieldValue f => exact (cm.overwrites_fieldValue f).done
  | valueAtPoints q points t => exact (cm.overwrites_valueAtPoints q points t).done
  | arrayAtPoints a n => exact (cm.overwrites_arrayAtPoints a n).done
  | fieldAtPoints f n => exact (cm.overwrites_fieldAtPoints f n).done
  | vectorArrayAtPoints a n => exact (cm.overwrites_vectorArrayAtPoints a n).done
  | vectorFieldAtPoints f n => exact (cm.overwrites_vectorFieldAtPoints f n).done
  | faceAverage q face t level => exact (cm.overwrites_faceAverage q face t level).done
  | cellAverage q t level => exact (cm.overwrites_cellAverage q t level).done
  | allAverages q t level => exact (cm.overwrites_allAverages hfaces q t level).done
  | averageVertices values stride =>
    exact (Fill.Overwrites.of_ofUpdate (cm.overwrites_averageVertices values stride)).done
  | writeVectorOfFluxes fluxes =>
    exact (Fill.Overwrites.of_ofUpdate (cm.overwrites_writeVectorOfFluxes fluxes)).done
  | faceFlux q face t level => exact .returning _ _
  | constantFlux face u => exact .returning _ _
  | functionFlux face t f level => exact .returning _ _
  | tensorFlux q face t level => exact .returning _ _
  | _ => exact absurd trivial hcall

end CellCall

/-! ## Cells of a mesh -/

namespace MeshTables

variable (m : MeshTables R) (c : Nat)

theorem overwrites_averageVertices (values : List R) (stride : Nat) :
    Overwrites stride (m.averageVertices c values stride) := by
  have hwrites : Writes stride (fun _ _ => m.vertexAverage values stride c)
      (fun _ => m.vertexAverage values stride c) :=
    ⟨fun _ _ _ => rfl, fun _ v hv => (m.writes_vertexAverage values stride).length_eq c v hv⟩
  exact Overwrites.updateFirst hwrites 0

theorem overwrites_writeVectorOfFluxes (fluxes : List R) :
    Overwrites 3 (m.writeVectorOfFluxes c fluxes) :=
  Overwrites.read fun v _ => Overwrites.overwriteFirst v.toList

end MeshTables

/-- A routine that leaves what the buffer held plus what it leaves in a buffer of zeros, and that
changes nothing but entries in `S`. -/
def Fill.AddsUp {α : Type} (need : Nat) (S : Nat → Prop) (m : Fill ℝ α) : Prop :=
  ∀ buf₀ a out₀, m buf₀ = .ok a out₀ → ∀ buf : Buffer ℝ, need ≤ buf.length →
    ∃ added out, m (List.replicate buf.length 0) = .ok a added ∧ m buf = .ok a out ∧
      added.length = buf.length ∧ out = List.zipWith (· + ·) buf added ∧
      ∀ j, ¬S j → out[j]? = buf[j]?

/-- Deposits add up. -/
theorem Fill.AddsTo.addsUp {α : Type} {need : Nat} {S : Nat → Prop} {m : Fill ℝ α}
    (hm : Fill.AddsTo need S m) : Fill.AddsUp need S m := by
  intro buf₀ a out₀ h₀ buf hbuf
  obtain ⟨ds, hds, hrun⟩ := hm _ _ _ h₀
  refine ⟨_, _, hrun _ (by rwa [List.length_replicate]), hrun buf hbuf, ?_,
    deposit_eq_zipWith ds buf, fun j hj => ?_⟩
  · rw [length_deposit, List.length_replicate]
  · refine getElem?_deposit_of_ne (fun d hd heq => hj ?_) buf
    exact heq ▸ hds d hd

/-- **Calls keep to their part of the buffer.**  On every cache with all capabilities, a call that
does not add up puts its values in place of the first entries, in any arithmetic: whenever it
succeeds on some buffer it does so on every buffer that has room for them, the values do not
depend on what the buffer holds, and all later entries stay as they are.  On a cell of a mesh, a
call that adds up leaves what the buffer held plus what it leaves in zeros, and changes no entry
but those that it reaches. -/
theorem CellCall.buffer_parts :
    (∀ {R : Type} [Scalar R] {m : MeshTables R} {c : Nat} {cm : CellCache R},
      CellCache.build m c .all = .ok cm →
        (∀ call : CellCall R, ¬call.Accumulates →
          Fill.Overwrites (call.width cm) (call.run cm)) ∧
        (∀ (values : List R) (stride : Nat),
          Overwrites stride (m.averageVertices c values stride)) ∧
        (∀ fluxes : List R, Overwrites 3 (m.writeVectorOfFluxes c fluxes)) ∧
        (∀ (v : Value R) (n : Nat), Overwrites (v.dim * n) (CellCache.constantAtPoints v n)) ∧
        (∀ (u : Vec3 R) (n : Nat), Overwrites (3 * n) (CellCache.vectorAtPoints u n)) ∧
        ∀ (f : SpaceTimeFunction R) (points : List (Vec3 R)) (t : R),
          Overwrites (f.dim * points.length) (CellCache.functionAtPoints f points t)) ∧
    ∀ {vertices : List (Vec3 ℝ)} {cells : List (List Loop)} {m : PolyhedralMesh ℝ} {c : Nat}
      {cm : CellCache ℝ}, PolyhedralMesh.build vertices cells = .ok m →
        CellCache.build m.toMeshTables c .all = .ok cm →
          ∀ call : CellCall ℝ, call.Accumulates →
            Fill.AddsUp (call.need cm) (call.Reaches cells cm) (call.run cm) := by
  constructor
  · intro R _ m c cm hcm
    refine ⟨fun call hcall => CellCall.overwrites_run ?_ hcall, m.overwrites_averageVertices c,
      m.overwrites_writeVectorOfFluxes c, CellCache.overwrites_constantAtPoints,
      fun u => CellCache.overwrites_constantAtPoints (.vector u),
      CellCache.overwrites_functionAtPoints⟩
    obtain ⟨-, rfl⟩ := CellCache.build_all_eq_ok.1 hcm
    have hall := CapabilitySet.contains_all
    rw [CellCache.faces_ofTables (hall _), CellCache.faceCount_ofTables (hall _), List.length_map]
  · intro vertices cells m c cm hm hcm call hcall
    exact (CellCall.addsTo_run hm hcm hcall).addsUp

/-- The mean of a function over the unit tetrahedron replaces the first entry of a buffer, and its
integral is added to it. -/
theorem buffer_parts_unitMesh :
    let f : SpaceTimeFunction ℝ := ⟨1, fun t x => #v[x.x + t]⟩
    ∃ cm : CellCache ℝ, CellCache.build Tetrahedron.unitMesh.toMeshTables 0 .all = .ok cm ∧
      (∃ mean, (CellCall.cellAverage ⟨.cell, .function f⟩ 5 .higher).run cm [7, 8] =
        .ok .done [mean, 8]) ∧
      ∃ integral, (CellCall.integrateCell 5 f .tetraFour).run cm [0, 0] = .ok .done [integral, 0] ∧
        (CellCall.integrateCell 5 f .tetraFour).run cm [7, 8] = .ok .done [7 + integral, 8] := by
  intro f
  have hm := Tetrahedron.build_unitMesh
  have hcons := PolyhedralMesh.consistent_of_build hm Tetrahedron.regularCell_unitMesh.lt
  have hcm := CellCache.build_eq_ofTables hcons CapabilitySet.closed_all
  set cm := CellCache.ofTables Tetrahedron.unitMesh.toMeshTables 0 .all
  refine ⟨cm, hcm, ?_, ?_⟩
  · have hq : (Quantity.mk .cell (.function f)).source.HasMeans := .inl rfl
    have hbuf : (Quantity.mk .cell (.function f)).dim ≤ ([0] : Buffer ℝ).length := by decide
    have hrun := CellCache.cellAverage_ofTables (t := 5) hcons hq .higher hbuf
    obtain ⟨values, hlen, hvalues⟩ := (CellCall.buffer_parts.1 hcm).1
      (.cellAverage ⟨.cell, .function f⟩ 5 .higher) id _ _ _ (Fill.bind_of_run_ok hrun)
    obtain ⟨mean, rfl⟩ := List.length_eq_one_iff.1 hlen
    exact ⟨mean, hvalues [7, 8] (by decide)⟩
  · have hbuf : f.dim ≤ ([0] : Buffer ℝ).length := by decide
    have hrun : cm.integrateCell 5 f .tetraFour [0] =
        .ok ((Tetrahedron.unitMesh.pieces 0).foldl (SimplexRule.tetraFour.addIntegral 5 f) [0]) :=
      (CellCache.integrateCell_ofTables hcons hbuf).trans
        (SimplexRule.integrateAll_eq_ok (SimplexRule.requireDim_eq_ok (.inl rfl)) _ _)
    obtain ⟨added, out, hadded, hout, hlen, rfl, hframe⟩ := CellCall.buffer_parts.2 hm hcm
      (.integrateCell 5 f .tetraFour) trivial _ _ _
      (Fill.bind_of_run_ok (Fill.ofUpdate_eq_ok.2 hrun)) [7, 8] (by decide)
    obtain ⟨integral, rest, rfl⟩ := List.length_eq_two.1 hlen
    have hrest : rest = 0 := by simpa using hframe 1 (Nat.lt_irrefl 1)
    subst hrest
    exact ⟨integral, hadded, by simpa using hout⟩

end Polyfield
