import Polyfield.Proofs.CellCalls
import Polyfield.Proofs.CellMeans
import Polyfield.Proofs.Deposits
import Polyfield.Proofs.FluxSplitting

/-!
# Calls that add to a buffer

Integrals over a cell and its faces, and fluxes split between vertices, are added to what the
buffer holds.  In any arithmetic such a call makes deposits: `CellCall.addsTo_run` names the
entries that it can reach.

* `SimplexRule.addsTo_integrateAll` : an integral over some simplices;
* `AddsToBoth.foldlM` : a loop over the two buffers of a single pass;
* `CellCache.addsTo_vertexFlux` : a split flux, at the vertices of the face.
-/

namespace Polyfield

variable {R : Type} [Scalar R]

/-! ## Integrals -/

namespace SimplexRule

variable {n : Nat}

/-- An integral goes to the first entries, one for each component of the function. -/
theorem addsTo_integrate (rule : SimplexRule R n) (t : R) (s : Simplex R n)
    (f : SpaceTimeFunction R) : AddsTo f.dim (· < f.dim) (rule.integrate t s f) := by
  cases hdim : requireDim f.dim with
  | error b =>
    have hfail : ∀ buf, rule.integrate t s f buf = .error b := fun buf => by
      rw [integrate, weightedValues, hdim]
      rfl
    exact AddsTo.of_error hfail
  | ok u =>
    rw [funext (integrate_eq_ok hdim s)]
    simp only [addIntegral, ← foldlM_eq_foldl (ε := Breach) fun _ _ _ => rfl]
    refine AddsTo.foldlM fun p _ => AddsTo.addScaled _ fun j hj => ?_
    rwa [SpaceTimeFunction.length_components] at hj

theorem addsTo_integrateAll (rule : SimplexRule R n) (t : R) (ss : List (Simplex R n))
    (f : SpaceTimeFunction R) : AddsTo f.dim (· < f.dim) (rule.integrateAll t ss f) :=
  AddsTo.foldlM fun s _ => rule.addsTo_integrate t s f

end SimplexRule

/-! ## Two buffers -/

/-- A routine that makes deposits in two buffers, the same ones in all that are long enough, unless
it fails on all. -/
def AddsToBoth (need₁ need₂ : Nat) (S₁ S₂ : Nat → Prop)
    (f : Buffer R × Buffer R → Except Breach (Buffer R × Buffer R)) : Prop :=
  ∀ bufs₀ outs₀, f bufs₀ = .ok outs₀ → ∃ ds₁ ds₂ : List (Nat × R),
    (∀ d ∈ ds₁, S₁ d.1) ∧ (∀ d ∈ ds₂, S₂ d.1) ∧ ∀ buf₁ buf₂ : Buffer R,
      need₁ ≤ buf₁.length → need₂ ≤ buf₂.length →
        f (buf₁, buf₂) = .ok (deposit ds₁ buf₁, deposit ds₂ buf₂)

namespace AddsToBoth

variable {need₁ need₂ : Nat} {S₁ S₂ : Nat → Prop}
  {f g : Buffer R × Buffer R → Except Breach (Buffer R × Buffer R)}

/-- A routine that leaves the buffers alone. -/
theorem id : AddsToBoth need₁ need₂ S₁ S₂ fun bufs : Buffer R × Buffer R => .ok bufs :=
  fun _ _ _ => ⟨[], [], nofun, nofun, fun _ _ _ _ => rfl⟩

theorem of_error {b : Breach} (h : ∀ bufs, f bufs = .error b) : AddsToBoth need₁ need₂ S₁ S₂ f :=
  fun bufs₀ outs₀ h₀ => by
    rw [h] at h₀
    cases h₀

/-- Deposits keep the lengths of both buffers. -/
theorem length_eq (hf : AddsToBoth need₁ need₂ S₁ S₂ f) (bufs : Buffer R × Buffer R)
    {outs : Buffer R × Buffer R} (h₁ : need₁ ≤ bufs.1.length) (h₂ : need₂ ≤ bufs.2.length)
    (h : f bufs = .ok outs) :
    outs.1.length = bufs.1.length ∧ outs.2.length = bufs.2.length := by
  obtain ⟨ds₁, ds₂, -, -, hrun⟩ := hf _ _ h
  obtain rfl := Except.ok.inj (h.symm.trans (hrun _ _ h₁ h₂))
  exact ⟨length_deposit _ _, length_deposit _ _⟩

/-- One routine for either buffer. -/
theorem pair {g₁ g₂ : Buffer R → Except Breach (Buffer R)} (h₁ : AddsTo need₁ S₁ g₁)
    (h₂ : AddsTo need₂ S₂ g₂) :
    AddsToBoth need₁ need₂ S₁ S₂ fun bufs => do return (← g₁ bufs.1, ← g₂ bufs.2) := by
  intro bufs₀ outs₀ h₀
  obtain ⟨out₁, hout₁, h₀⟩ := bind_eq_ok.1 h₀
  obtain ⟨out₂, hout₂, -⟩ := bind_eq_ok.1 h₀
  obtain ⟨ds₁, hds₁, hrun₁⟩ := h₁ _ _ hout₁
  obtain ⟨ds₂, hds₂, hrun₂⟩ := h₂ _ _ hout₂
  refine ⟨ds₁, ds₂, hds₁, hds₂, fun buf₁ buf₂ hbuf₁ hbuf₂ => ?_⟩
  exact (bind_of_ok (hrun₁ buf₁ hbuf₁) _).trans (bind_of_ok (hrun₂ buf₂ hbuf₂) _)

/-- One routine after the other. -/
theorem bind (hf : AddsToBoth need₁ need₂ S₁ S₂ f) (hg : AddsToBoth need₁ need₂ S₁ S₂ g) :
    AddsToBoth need₁ need₂ S₁ S₂ fun bufs => f bufs >>= g := by
  intro bufs₀ outs₀ h₀
  obtain ⟨mids, hmids, houts⟩ := bind_eq_ok.1 h₀
  obtain ⟨ds₁, ds₂, hds₁, hds₂, hfirst⟩ := hf _ _ hmids
  obtain ⟨es₁, es₂, hes₁, hes₂, hthen⟩ := hg _ _ houts
  refine ⟨ds₁ ++ es₁, ds₂ ++ es₂, List.forall_mem_append.2 ⟨hds₁, hes₁⟩,
    List.forall_mem_append.2 ⟨hds₂, hes₂⟩, fun buf₁ buf₂ hbuf₁ hbuf₂ => ?_⟩
  rw [deposit_append, deposit_append,
    ← hthen _ _ (by rwa [length_deposit]) (by rwa [length_deposit])]
  exact bind_of_ok (hfirst buf₁ buf₂ hbuf₁ hbuf₂) g

/-- A step that does not look at the buffers, and then a routine. -/
theorem read {α : Type} {x : Except Breach α}
    {k : α → Buffer R × Buffer R → Except Breach (Buffer R × Buffer R)}
    (h : ∀ a, x = .ok a → AddsToBoth need₁ need₂ S₁ S₂ (k a)) :
    AddsToBoth need₁ need₂ S₁ S₂ fun bufs => x >>= fun a => k a bufs := by
  cases hx : x with
  | error b => exact of_error fun _ => rfl
  | ok a => exact h a hx

/-- A check of the lengths that passes on all buffers that are long enough. -/
theorem check {b : Breach} {len₁ len₂ : Nat} (hlen₁ : len₁ ≤ need₁) (hlen₂ : len₂ ≤ need₂)
    (hf : AddsToBoth need₁ need₂ S₁ S₂ f) : AddsToBoth need₁ need₂ S₁ S₂ fun bufs =>
      if bufs.1.length < len₁ ∨ bufs.2.length < len₂ then .error b else f bufs := by
  intro bufs₀ outs₀ h₀
  obtain ⟨ds₁, ds₂, hds₁, hds₂, hrun⟩ := hf bufs₀ outs₀ (ite_error_eq_ok.1 h₀).2
  refine ⟨ds₁, ds₂, hds₁, hds₂, fun buf₁ buf₂ hbuf₁ hbuf₂ => ?_⟩
  have hlong : ¬(buf₁.length < len₁ ∨ buf₂.length < len₂) := by omega
  exact (if_neg hlong).trans (hrun buf₁ buf₂ hbuf₁ hbuf₂)

/-- **A loop makes the deposits of its steps in both buffers.** -/
theorem foldlM {ι : Type}
    {step : Buffer R × Buffer R → ι → Except Breach (Buffer R × Buffer R)} {xs : List ι}
    (h : ∀ x ∈ xs, AddsToBoth need₁ need₂ S₁ S₂ (step · x)) :
    AddsToBoth need₁ need₂ S₁ S₂ (xs.foldlM step ·) := by
  induction xs with
  | nil => exact id
  | cons x xs ih =>
    exact (h x List.mem_cons_self).bind (ih fun y hy => h y (List.mem_cons_of_mem x hy))

/-- Both buffers as the front and the rest of one. -/
theorem joint (hf : AddsToBoth need₁ need₂ S₁ S₂ f) {n : Nat} (hn : need₁ ≤ n)
    (hS₁ : ∀ j, S₁ j → j < n) :
    AddsTo (n + need₂) (fun j => S₁ j ∨ n ≤ j ∧ S₂ (j - n)) fun buf => do
      let outs ← f (buf.take n, buf.drop n)
      return outs.1 ++ outs.2 := by
  intro buf₀ out₀ h₀
  obtain ⟨outs₀, houts₀, -⟩ := bind_eq_ok.1 h₀
  obtain ⟨ds₁, ds₂, hds₁, hds₂, hrun⟩ := hf _ _ houts₀
  refine ⟨ds₁ ++ behind n ds₂, List.forall_mem_append.2 ⟨fun d hd => .inl (hds₁ d hd), ?_⟩,
    fun buf hbuf => ?_⟩
  · intro d hd
    obtain ⟨e, he, rfl⟩ := List.mem_map.1 hd
    exact .inr ⟨Nat.le_add_right _ _, by simpa using hds₂ e he⟩
  · have hfront : (buf.take n).length = n := List.length_take_of_le (by omega)
    have hrest : need₂ ≤ (buf.drop n).length := by
      rw [List.length_drop]
      omega
    refine (bind_of_ok (hrun _ _ (hn.trans_eq hfront.symm) hrest) _).trans ?_
    have hsplit : deposit ds₁ buf = deposit ds₁ (buf.take n) ++ buf.drop n := by
      rw [← deposit_front fun d hd => (hS₁ _ (hds₁ d hd)).trans_eq hfront.symm,
        List.take_append_drop]
    have hbehind := deposit_behind ds₂ (deposit ds₁ (buf.take n)) (buf.drop n)
    rw [length_deposit, hfront] at hbehind
    rw [deposit_append, hsplit, hbehind]
    rfl

end AddsToBoth

namespace CellCache

variable (cm : CellCache R)

/-! ## Integrals over a cell and its faces -/

theorem addsTo_integrateFace (f : Nat) (t : R) (func : SpaceTimeFunction R)
    (rule : SimplexRule R 3) :
    AddsTo func.dim (· < func.dim) (cm.integrateFace f t func rule) := by
  unfold integrateFace
  refine AddsTo.read fun _ _ => AddsTo.check le_rfl ?_
  exact AddsTo.read fun pieces _ => rule.addsTo_integrateAll t pieces func

theorem addsTo_integrateCell (t : R) (func : SpaceTimeFunction R) (rule : SimplexRule R 4) :
    AddsTo func.dim (· < func.dim) (cm.integrateCell t func rule) := by
  unfold integrateCell
  refine AddsTo.read fun _ _ => AddsTo.check le_rfl ?_
  exact AddsTo.read fun pieces _ => rule.addsTo_integrateAll t pieces func

/-- The integral over a face goes to the place of the face. -/
theorem addsTo_addFaceIntegral (t : R) (func : SpaceTimeFunction R) (rule : SimplexRule R 3)
    {f count : Nat} (hf : f < count) (pieces : List (Simplex R 3)) :
    AddsTo (func.dim * count) (· < func.dim * count) (addFaceIntegral t func rule f pieces) := by
  have hle : func.dim * (f + 1) ≤ func.dim * count := Nat.mul_le_mul_left _ hf
  rw [Nat.mul_succ] at hle
  refine (AddsTo.updateSlot (fun _ h => h) hle (rule.addsTo_integrateAll t pieces func)).mono ?_
  intro j hj
  omega

/-- The integrals of a single pass. -/
theorem addsToBoth_integrateCellAndFaces (t : R) (func : SpaceTimeFunction R)
    (tetraRule : SimplexRule R 4) (triangleRule : SimplexRule R 3) :
    AddsToBoth func.dim (func.dim * cm.faceCount) (· < func.dim) (· < func.dim * cm.faceCount)
      fun bufs => cm.integrateCellAndFaces t func tetraRule triangleRule bufs.1 bufs.2 := by
  unfold integrateCellAndFaces
  refine AddsToBoth.read fun _ _ => AddsToBoth.check le_rfl le_rfl ?_
  split
  · refine AddsToBoth.read fun tetra _ => ?_
    refine AddsToBoth.pair (tetraRule.addsTo_integrate t tetra func) (AddsTo.foldlM fun f hf => ?_)
    exact AddsTo.read fun triangle _ => addsTo_addFaceIntegral t func triangleRule
      (List.mem_range.1 hf) [triangle]
  · refine AddsToBoth.foldlM fun f hf => AddsToBoth.read fun triangles _ => ?_
    refine AddsToBoth.read fun cones _ => ?_
    exact AddsToBoth.pair (tetraRule.addsTo_integrateAll t cones func)
      (addsTo_addFaceIntegral t func triangleRule (List.mem_range.1 hf) triangles)

variable {cm} in
/-- The buffer for the integral over the cell has an entry for each component. -/
theorem dim_le_of_integrateCellAndFaces {t : R} {func : SpaceTimeFunction R}
    {tetraRule : SimplexRule R 4} {triangleRule : SimplexRule R 3} {cellBuf faceBuf : Buffer R}
    {outs : Buffer R × Buffer R}
    (h : cm.integrateCellAndFaces t func tetraRule triangleRule cellBuf faceBuf = .ok outs) :
    func.dim ≤ cellBuf.length := by
  have hlong := (ite_error_eq_ok.1 (unit_bind_eq_ok.1 h).2).1
  omega

end CellCache

/-! ## Routines -/

/-- A routine that makes deposits at entries in `S` and answers the same on every buffer of at
least `need` entries, unless it fails on every buffer. -/
def Fill.AddsTo {α : Type} (need : Nat) (S : Nat → Prop) (m : Fill R α) : Prop :=
  ∀ buf₀ a out₀, m buf₀ = .ok a out₀ → ∃ ds : List (Nat × R), (∀ d ∈ ds, S d.1) ∧
    ∀ buf : Buffer R, need ≤ buf.length → m buf = .ok a (deposit ds buf)

namespace Fill.AddsTo

variable {α : Type} {need : Nat} {S : Nat → Prop}

theorem of_ofUpdate {f : Buffer R → Except Breach (Buffer R)} (hf : Polyfield.AddsTo need S f) :
    AddsTo need S (ofUpdate f) := by
  intro buf₀ a out₀ h₀
  obtain ⟨ds, hds, hrun⟩ := hf _ _ (ofUpdate_eq_ok.1 h₀)
  exact ⟨ds, hds, fun buf hbuf => ofUpdate_eq_ok.2 (hrun buf hbuf)⟩

theorem of_refuse (r : Refusal) : AddsTo need S (liftM (refuse r : Except Fault α) : Fill R α) :=
  nofun

theorem of_pure (a : α) : AddsTo need S (pure a : Fill R α) := by
  intro buf₀ b out₀ h₀
  cases h₀
  exact ⟨[], nofun, fun _ _ => rfl⟩

/-- One routine after the other. -/
theorem bind {β : Type} {m : Fill R α} {k : α → Fill R β} (hm : AddsTo need S m)
    (hk : ∀ a, AddsTo need S (k a)) : AddsTo need S (m >>= k) := by
  intro buf₀ b out₀ h₀
  cases hrun₀ : m buf₀ with
  | error e out =>
    rw [bind_of_run_error hrun₀] at h₀
    cases h₀
  | ok a mid₀ =>
    rw [bind_of_run_ok hrun₀] at h₀
    obtain ⟨ds, hds, hfirst⟩ := hm _ _ _ hrun₀
    obtain ⟨es, hes, hthen⟩ := hk a _ _ _ h₀
    refine ⟨ds ++ es, List.forall_mem_append.2 ⟨hds, hes⟩, fun buf hbuf => ?_⟩
    rw [bind_of_run_ok (hfirst buf hbuf), hthen _ (by rwa [length_deposit]), deposit_append]

theorem done {m : Fill R Unit} (hm : AddsTo need S m) : AddsTo need S m.done :=
  hm.bind fun _ => of_pure _

end Fill.AddsTo

/-! ## Split fluxes -/

namespace CellCache

/-- A local vertex is a vertex of a local face. -/
def OnFace (cells : List (List Loop)) (cm : CellCache R) (k j : Nat) : Prop :=
  ∃ f v, cm.faceIds[k]? = some f ∧ v ∈ (Numbering.ofCells cells).loop f ∧ cm.vertexIds[j]? = some v

omit [Scalar R] in
theorem OnFace.lt {cells : List (List Loop)} {cm : CellCache R} {k j : Nat}
    (h : cm.OnFace cells k j) : j < cm.vertexCount := by
  obtain ⟨_, _, -, -, hj⟩ := h
  exact (List.getElem?_eq_some_iff.1 hj).1

/-- The ends of the edges of a face are vertices of the face. -/
theorem onFace_ends {vertices : List (Vec3 R)} {cells : List (List Loop)} {m : PolyhedralMesh R}
    {c : Nat} {cm : CellCache R} (hm : PolyhedralMesh.build vertices cells = .ok m)
    (hcm : build m.toMeshTables c .all = .ok cm) (k : Nat) (face : EntityGeometry R)
    (sides : List (FaceSide R)) (hface : fetch cm.faces k = .ok face)
    (hsides : cm.faceSides k = .ok sides) (side : FaceSide R) (hside : side ∈ sides) :
    cm.OnFace cells k side.ends.1 ∧ cm.OnFace cells k side.ends.2 := by
  obtain ⟨h, rfl⟩ := build_all_eq_ok.1 hcm
  have hall := CapabilitySet.contains_all
  rw [faces_ofTables (hall _)] at hface
  have hk : k < ((m.trimmed c).cellFaces.getD c []).length := by
    simpa using lt_of_fetch_eq_ok hface
  have hget := MeshTables.getElem?_faceAt hk
  have hf : (m.trimmed c).faceAt c k ∈ m.cellFaces.getD c [] := List.mem_of_getElem? hget
  obtain ⟨-, -, -, hread⟩ := splitReads_ofTables h hget
  obtain rfl := Except.ok.inj (hsides.symm.trans hread)
  obtain ⟨e, he, rfl⟩ := List.mem_map.1 hside
  obtain ⟨hfirst, hsecond⟩ := PolyhedralMesh.ends_mem_loop hm hf he
  obtain ⟨hfirst', hsecond'⟩ := h.ends_mem e (h.faceEdges_mem _ (List.mem_of_getElem? hget) e he)
  unfold OnFace
  rw [faceIds_ofTables (hall _), vertexIds_ofTables (hall _)]
  exact ⟨⟨_, _, hget, hfirst, List.getElem?_idxOf hfirst'⟩,
    _, _, hget, hsecond, List.getElem?_idxOf hsecond'⟩

variable (cm : CellCache R) {S : Nat → Prop} {k : Nat} (hS : ∀ j, S j → j < cm.vertexCount)
  (hsides : ∀ face sides, fetch cm.faces k = .ok face → cm.faceSides k = .ok sides →
    ∀ side ∈ sides, S side.ends.1 ∧ S side.ends.2)

include hS

theorem addsTo_addToEnds {ends : Nat × Nat} (hends : S ends.1 ∧ S ends.2) (a b : R) :
    AddsTo cm.vertexCount S (addToEnds ends a b) :=
  (AddsTo.addAt hends.1 (hS _ hends.1) a).bind (AddsTo.addAt hends.2 (hS _ hends.2) b)

theorem addsTo_addHalfFlux (face : EntityGeometry R) (t : R) (func : SpaceTimeFunction R)
    (rule : SimplexRule R 3) (side : FaceSide R) {v : Nat} (hv : S v) (x : Vec3 R) :
    AddsTo cm.vertexCount S (addHalfFlux face t func rule side v x) := by
  unfold addHalfFlux
  refine AddsTo.read fun values _ => AddsTo.foldlM fun value _ => ?_
  exact AddsTo.read fun u _ => AddsTo.addAt hv (hS v hv) _

include hsides

theorem addsTo_constantVertexFlux (u : Vec3 R) :
    AddsTo cm.vertexCount S (cm.constantVertexFlux k u) := by
  unfold constantVertexFlux
  refine AddsTo.read fun _ _ => AddsTo.read fun face hf => AddsTo.read fun sides h => ?_
  refine AddsTo.foldlM fun side hside => ?_
  exact cm.addsTo_addToEnds hS (hsides face sides hf h side hside) _ _

theorem addsTo_functionVertexFlux (t : R) (func : SpaceTimeFunction R) (level : Level) :
    Fill.AddsTo cm.vertexCount S (cm.functionVertexFlux k t func level) := by
  unfold functionVertexFlux
  cases level with
  | bary =>
    refine .of_ofUpdate (AddsTo.read fun _ _ => AddsTo.read fun _ _ => AddsTo.read fun u _ => ?_)
    exact cm.addsTo_constantVertexFlux hS hsides u
  | barySubdiv =>
    refine .of_ofUpdate (AddsTo.read fun _ _ => AddsTo.read fun face hf =>
      AddsTo.read fun sides h => AddsTo.foldlM fun side hside => AddsTo.read fun shares _ => ?_)
    exact cm.addsTo_addToEnds hS (hsides face sides hf h side hside) _ _
  | higher =>
    refine .of_ofUpdate (AddsTo.read fun _ _ => AddsTo.read fun face hf =>
      AddsTo.read fun sides h => AddsTo.foldlM fun side hside => ?_)
    obtain ⟨hfirst, hsecond⟩ := hsides face sides hf h side hside
    exact (cm.addsTo_addHalfFlux hS face t func _ side hfirst _).bind
      (cm.addsTo_addHalfFlux hS face t func _ side hsecond _)
  | highest =>
    refine (Fill.AddsTo.of_ofUpdate ?_).bind fun _ => .of_refuse _
    exact AddsTo.read fun _ _ => AddsTo.read fun _ _ => AddsTo.id

theorem addsTo_vertexFlux (q : Quantity R) (t : R) (level : Level) :
    Fill.AddsTo cm.vertexCount S (cm.vertexFlux q k t level) := by
  unfold vertexFlux
  refine (Fill.AddsTo.of_ofUpdate (AddsTo.check le_rfl AddsTo.id)).bind fun _ => ?_
  cases q.source with
  | constant v =>
    cases v with
    | vector u => exact .of_ofUpdate (cm.addsTo_constantVertexFlux hS hsides u)
    | scalar x => exact .of_refuse _
    | tensor T => exact .of_refuse _
  | function f =>
    by_cases hdim : f.dim = 3
    · simpa only [if_pos hdim] using cm.addsTo_functionVertexFlux hS hsides t f level
    · simpa only [if_neg hdim] using Fill.AddsTo.of_refuse _
  | array a => exact .of_refuse _
  | field f => exact .of_refuse _

end CellCache

/-! ## Calls -/

namespace CellCall

/-- Whether a call adds to what the buffer holds. -/
def Accumulates : CellCall R → Prop
  | integrateFace .. | integrateCell .. | integrateCellAndFaces .. | vertexFlux ..
  | constantVertexFlux .. | functionVertexFlux .. => True
  | _ => False

/-- The number of entries that a call which adds to a buffer needs. -/
def need (cm : CellCache R) : CellCall R → Nat
  | integrateFace _ _ f _ | integrateCell _ f _ => f.dim
  | integrateCellAndFaces _ f _ _ cellEntries => cellEntries + f.dim * cm.faceCount
  | vertexFlux .. | constantVertexFlux .. | functionVertexFlux .. => cm.vertexCount
  | _ => 0

/-- The entries that a call can add to: the first ones for an integral over a cell or a face, one
block for each face for the integrals over all faces, and those of the vertices of the face for a
split flux. -/
def Reaches (cells : List (List Loop)) (cm : CellCache R) : CellCall R → Nat → Prop
  | integrateFace _ _ f _, j | integrateCell _ f _, j => j < f.dim
  | integrateCellAndFaces _ f _ _ cellEntries, j =>
    j < f.dim ∨ cellEntries ≤ j ∧ j < cellEntries + f.dim * cm.faceCount
  | vertexFlux _ face _ _, j | constantVertexFlux face _, j | functionVertexFlux face _ _ _, j =>
    cm.OnFace cells face j
  | _, _ => False

/-- **Calls that add to a buffer make deposits.**  The entries and the amounts do not depend on
what the buffer holds, and only entries that the call reaches are among them. -/
theorem addsTo_run {vertices : List (Vec3 R)} {cells : List (List Loop)} {m : PolyhedralMesh R}
    {c : Nat} {cm : CellCache R} (hm : PolyhedralMesh.build vertices cells = .ok m)
    (hcm : CellCache.build m.toMeshTables c .all = .ok cm) {call : CellCall R}
    (hcall : call.Accumulates) :
    Fill.AddsTo (call.need cm) (call.Reaches cells cm) (call.run cm) := by
  have hends := CellCache.onFace_ends hm hcm
  have hlt : ∀ k j, cm.OnFace cells k j → j < cm.vertexCount := fun _ _ => CellCache.OnFace.lt
  cases call with
  | integrateFace face t f rule =>
    exact (Fill.AddsTo.of_ofUpdate (cm.addsTo_integrateFace face t f rule)).done
  | integrateCell t f rule =>
    exact (Fill.AddsTo.of_ofUpdate (cm.addsTo_integrateCell t f rule)).done
  | integrateCellAndFaces t f tetraRule triangleRule cellEntries =>
    refine (Fill.AddsTo.of_ofUpdate ?_).done
    have hboth := cm.addsToBoth_integrateCellAndFaces t f tetraRule triangleRule
    rcases Nat.lt_or_ge cellEntries f.dim with hshort | hlong
    · intro buf₀ out₀ h₀
      obtain ⟨outs₀, houts₀, -⟩ := bind_eq_ok.1 h₀
      have hle := CellCache.dim_le_of_integrateCellAndFaces houts₀
      rw [List.length_take] at hle
      omega
    · refine (hboth.joint hlong fun j hj => hj.trans_le hlong).mono fun j hj => ?_
      rw [Reaches]
      omega
  | vertexFlux q face t level =>
    exact (cm.addsTo_vertexFlux (hlt face) (hends face) q t level).done
  | constantVertexFlux face u =>
    exact (Fill.AddsTo.of_ofUpdate (cm.addsTo_constantVertexFlux (hlt face) (hends face) u)).done
  | functionVertexFlux face t f level =>
    exact (cm.addsTo_functionVertexFlux (hlt face) (hends face) t f level).done
  | _ => exact hcall.elim

end CellCall

end Polyfield
