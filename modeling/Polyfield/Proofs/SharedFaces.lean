import Polyfield.Proofs.BoundaryAverages
import Polyfield.Proofs.FluxSplitting

/-!
# Faces shared by two cells

Two cells number the vertices and edges of a common face differently, and each of them has its own
center.  Nothing of this is seen in averages over the face or fluxes through it, except for
functions at the lowest level of a flux, which are evaluated at the cell center.

* `CellCache.SameFace` : what routines on a face read from two caches, and that they give the same
  (`SameFace.faceAverage_eq`, `SameFace.faceFlux_eq`, `SameFace.tensorFlux_eq`);
* `SpaceTimeFunction.tensor`, `CellCache.functionTensorFlux_eq_foldl` : the values of a function of
  nine components, and its flux sample by sample;
* `SameEntries`, `InStep` : buffers of two cells that agree on common vertices, and routines that
  keep this so, step by step (`InStep.foldlM`);
* `CellCache.shared_face` : the same averages and fluxes, and the same parts of a flux at the
  vertices of the face, in any arithmetic.
-/

namespace Polyfield

/-! ## Averages and fluxes -/

namespace CellCache

variable {R : Type} [Scalar R]

/-- Two caches read the same about a face that each of them has under a number of its own. -/
structure SameFace (cm₁ : CellCache R) (k₁ : Nat) (cm₂ : CellCache R) (k₂ : Nat) : Prop where
  requires_eq : ∀ needs, cm₁.requires needs = cm₂.requires needs
  face_eq : fetch cm₁.faces k₁ = fetch cm₂.faces k₂
  pieces_eq : cm₁.facePieces k₁ = cm₂.facePieces k₂
  fan_eq : cm₁.centerFan k₁ = cm₂.centerFan k₂

/-- Both caches find the face in the tables of the mesh. -/
theorem sameFace_ofTables {m : MeshTables R} {c₁ c₂ k₁ k₂ f : Nat} (h₁ : m.Consistent c₁)
    (h₂ : m.Consistent c₂) (hk₁ : (m.cellFaces.getD c₁ [])[k₁]? = some f)
    (hk₂ : (m.cellFaces.getD c₂ [])[k₂]? = some f) :
    SameFace (ofTables m c₁ .all) k₁ (ofTables m c₂ .all) k₂ := by
  have hall : ∀ k : Capability, CapabilitySet.all.contains k = true := CapabilitySet.contains_all
  constructor
  · intro needs
    have hrequires : ∀ c, (ofTables m c .all).requires needs = .ok () := fun _ =>
      requires_eq_ok.2 fun k _ => hall k
    rw [hrequires, hrequires]
  · rw [fetch_faces_ofTables (hall _) hk₁, fetch_faces_ofTables (hall _) hk₂]
  · rw [facePieces_ofTables h₁ (fun k _ => hall k) hk₁,
      facePieces_ofTables h₂ (fun k _ => hall k) hk₂]
  · rw [centerFan_ofTables h₁ (fun k _ => hall k) (hall _) (hall _) hk₁,
      centerFan_ofTables h₂ (fun k _ => hall k) (hall _) (hall _) hk₂]

namespace SameFace

variable {cm₁ cm₂ : CellCache R} {k₁ k₂ : Nat} (h : SameFace cm₁ k₁ cm₂ k₂) {level : Level}

include h

theorem averageFunctionOnFace_eq (t : R) (func : SpaceTimeFunction R) (rule : SimplexRule R 3) :
    cm₁.averageFunctionOnFace k₁ t func rule = cm₂.averageFunctionOnFace k₂ t func rule := by
  funext slot
  simp only [averageFunctionOnFace, integrateFace, h.requires_eq, h.pieces_eq, h.face_eq]

/-- **The average over a face is the same from both caches**, or refused in the same way. -/
theorem faceAverage_eq (q : Quantity R) (t : R) (level : Level) :
    cm₁.faceAverage q k₁ t level = cm₂.faceAverage q k₂ t level := by
  unfold faceAverage
  cases q.source with
  | constant v => rfl
  | function func => simp only [h.averageFunctionOnFace_eq]
  | array a => rfl
  | field a => rfl

/-- Only the lowest level reads the center of the cell. -/
theorem fluxSamples_eq (dim : Nat) (hlevel : level ≠ .bary) :
    cm₁.fluxSamples k₁ dim level = cm₂.fluxSamples k₂ dim level := by
  cases level with
  | bary => exact absurd rfl hlevel
  | barySubdiv => simp only [fluxSamples, h.requires_eq, h.face_eq, h.fan_eq]
  | higher => simp only [fluxSamples, h.requires_eq, h.face_eq, h.fan_eq]
  | highest => simp only [fluxSamples, h.requires_eq, h.face_eq, h.fan_eq]

/-- **The flux through a face is the same from both caches**, or refused in the same way. -/
theorem faceFlux_eq {q : Quantity R} (t : R) (hlevel : q.kind = .function → level ≠ .bary) :
    cm₁.faceFlux q k₁ t level = cm₂.faceFlux q k₂ t level := by
  unfold Quantity.kind at hlevel
  unfold faceFlux
  generalize q.source = source at hlevel ⊢
  cases source with
  | constant v => cases v <;> simp only [constantFlux, h.requires_eq, h.face_eq]
  | function func => simp only [functionFlux, h.fluxSamples_eq _ (hlevel rfl), h.face_eq]
  | array a => rfl
  | field a => rfl

/-- **The flux of a tensor is the same from both caches**, or refused in the same way. -/
theorem tensorFlux_eq {q : Quantity R} (t : R) (hlevel : q.kind = .function → level ≠ .bary) :
    cm₁.tensorFlux q k₁ t level = cm₂.tensorFlux q k₂ t level := by
  unfold Quantity.kind at hlevel
  unfold tensorFlux
  generalize q.source = source at hlevel ⊢
  cases source with
  | constant v => cases v <;> simp only [constantTensorFlux, h.requires_eq, h.face_eq]
  | function func => simp only [functionTensorFlux, h.fluxSamples_eq _ (hlevel rfl), h.face_eq]
  | array a => rfl
  | field a => rfl

end SameFace

end CellCache

/-! ## Tensors of nine components -/

namespace SpaceTimeFunction

variable {R : Type} [Scalar R]

/-- The value of a function of nine components as a tensor. -/
def tensor (f : SpaceTimeFunction R) (t : R) (x : Vec3 R) : Tensor R :=
  let entry (i : Nat) := (f.components t x).getD i 0
  ⟨⟨entry 0, entry 1, entry 2⟩, ⟨entry 3, entry 4, entry 5⟩, ⟨entry 6, entry 7, entry 8⟩⟩

theorem components_eq_tensor {f : SpaceTimeFunction R} (h : f.dim = 9) (t : R) (x : Vec3 R) :
    f.components t x = (f.tensor t x).toList := by
  have hlength := (f.length_components t x).trans h
  unfold tensor
  generalize f.components t x = cs at hlength
  match cs, hlength with
  | [_, _, _, _, _, _, _, _, _], _ => rfl

end SpaceTimeFunction

namespace CellCache

variable {R : Type} [Scalar R]

/-- The flux of a tensor function, sample by sample. -/
theorem functionTensorFlux_eq_foldl {cm : CellCache R} {k : Nat} {t : R} {level : Level}
    {func : SpaceTimeFunction R} (hdim : func.dim = 9) {ss : List (Sample R)}
    {face : EntityGeometry R} (hss : cm.fluxSamples k func.dim level = .ok ss)
    (hface : fetch cm.faces k = .ok face) :
    cm.functionTensorFlux k t func level = .ok (ss.foldl
      (fun flux s => flux + s.weight • (func.tensor t s.point).apply face.unit) 0) := by
  rw [functionTensorFlux, hss, ok_bind, hface, liftM_ok, ok_bind]
  refine foldlM_eq_foldl (fun flux s _ => ?_) 0
  rw [componentsAt_eq_ok (.inr hdim), func.components_eq_tensor hdim, liftM_ok, ok_bind,
    Tensor.ofComponents_toList, liftM_ok, ok_bind]
  rfl

/-! ## Fluxes that exist -/

section Existence

variable {m : MeshTables R} {c k f : Nat}

/-- Every level has samples for functions with a suitable number of components. -/
theorem exists_fluxSamples (h : m.Consistent c) (hk : (m.cellFaces.getD c [])[k]? = some f)
    {dim : Nat} (hdim : dim = 1 ∨ dim = 3 ∨ dim = 9) (level : Level) :
    ∃ ss, (ofTables m c .all).fluxSamples k dim level = .ok ss := by
  have hneeds := CapabilitySet.contains_all .faceTriangles
  have hclosed := CapabilitySet.closed_all
  cases level with
  | bary =>
    obtain ⟨hreq, -, hfetch, -⟩ := fluxReads_ofTables h hclosed hneeds hk
    refine ⟨[⟨(m.face f).measure, (ofTables m c .all).center⟩], ?_⟩
    simp only [fluxSamples, hreq, hfetch, liftM_ok, ok_bind, pure_eq_ok]
  | barySubdiv => exact ⟨_, fluxSamples_barySubdiv h hclosed hneeds hk dim⟩
  | higher => exact ⟨_, fluxSamples_rule h hclosed hneeds hk hdim (.inl rfl)⟩
  | highest => exact ⟨_, fluxSamples_rule h hclosed hneeds hk hdim (.inr rfl)⟩

theorem exists_faceFlux (h : m.Consistent c) (hk : (m.cellFaces.getD c [])[k]? = some f)
    {q : Quantity R} (hq : q.source.HasMeans) (hdim : q.dim = 3) (t : R) (level : Level) :
    ∃ flux, (ofTables m c .all).faceFlux q k t level = .ok flux := by
  obtain ⟨hreq, -, hfetch, -⟩ := splitReads_ofTables h hk
  unfold Quantity.dim at hdim
  unfold faceFlux
  generalize q.source = source at hq hdim ⊢
  cases source with
  | constant v =>
    cases v with
    | scalar s => simp [Source.dim, Value.dim] at hdim
    | vector u =>
      refine ⟨(m.face f).measure * (m.face f).unit.dot u, ?_⟩
      simp only [constantFlux, hreq, hfetch, ok_bind]
      rfl
    | tensor a => simp [Source.dim, Value.dim] at hdim
  | function func =>
    obtain ⟨ss, hss⟩ := exists_fluxSamples h hk hq level
    exact ⟨_, (if_pos hdim).trans (functionFlux_eq_foldl hdim t hss hfetch)⟩
  | array a => exact hq.elim
  | field a => exact hq.elim

theorem exists_tensorFlux (h : m.Consistent c) (hk : (m.cellFaces.getD c [])[k]? = some f)
    {q : Quantity R} (hq : q.source.HasMeans) (hdim : q.dim = 9) (t : R) (level : Level) :
    ∃ flux, (ofTables m c .all).tensorFlux q k t level = .ok flux := by
  obtain ⟨hreq, -, hfetch, -⟩ := splitReads_ofTables h hk
  unfold Quantity.dim at hdim
  unfold tensorFlux
  generalize q.source = source at hq hdim ⊢
  cases source with
  | constant v =>
    cases v with
    | scalar s => simp [Source.dim, Value.dim] at hdim
    | vector u => simp [Source.dim, Value.dim] at hdim
    | tensor a =>
      refine ⟨(m.face f).measure • a.apply (m.face f).unit, ?_⟩
      simp only [constantTensorFlux, hreq, hfetch, ok_bind]
      rfl
  | function func =>
    obtain ⟨ss, hss⟩ := exists_fluxSamples h hk hq level
    exact ⟨_, (if_pos hdim).trans (functionTensorFlux_eq_foldl hdim hss hfetch)⟩
  | array a => exact hq.elim
  | field a => exact hq.elim

end Existence

end CellCache

/-! ## Routines on two buffers -/

section Buffers

variable {R : Type} {ids₁ ids₂ : List Nat}

/-- Two buffers, each with an entry for every number of a list, that have the same entry for the
numbers in both lists. -/
def SameEntries (ids₁ ids₂ : List Nat) (buf₁ buf₂ : Buffer R) : Prop :=
  ∀ v ∈ ids₁, v ∈ ids₂ →
    ∃ a, buf₁[ids₁.idxOf v]? = some a ∧ buf₂[ids₂.idxOf v]? = some a

/-- Routines that succeed on buffers with the same entries, and leave such buffers. -/
def InStep (ids₁ ids₂ : List Nat) (f g : Buffer R → Except Breach (Buffer R)) : Prop :=
  ∀ buf₁ buf₂ : Buffer R, SameEntries ids₁ ids₂ buf₁ buf₂ →
    ∃ out₁ out₂, f buf₁ = .ok out₁ ∧ g buf₂ = .ok out₂ ∧ SameEntries ids₁ ids₂ out₁ out₂

/-- Equal numbers in buffers that are long enough. -/
theorem sameEntries_replicate {n₁ n₂ : Nat} (h₁ : ids₁.length ≤ n₁)
    (h₂ : ids₂.length ≤ n₂) (a : R) :
    SameEntries ids₁ ids₂ (List.replicate n₁ a) (List.replicate n₂ a) := by
  intro v hv₁ hv₂
  have hlt₁ : ids₁.idxOf v < n₁ := (List.idxOf_lt_length_of_mem hv₁).trans_le h₁
  have hlt₂ : ids₂.idxOf v < n₂ := (List.idxOf_lt_length_of_mem hv₂).trans_le h₂
  exact ⟨a, by rw [List.getElem?_replicate, if_pos hlt₁], by
    rw [List.getElem?_replicate, if_pos hlt₂]⟩

namespace InStep

variable {f f' g g' : Buffer R → Except Breach (Buffer R)}

/-- Adding a number to the entries of one vertex. -/
theorem addAt [Scalar R] {v : Nat} (hv₁ : v ∈ ids₁) (hv₂ : v ∈ ids₂) (a : R) :
    InStep ids₁ ids₂ (Polyfield.addAt (ids₁.idxOf v) a) (Polyfield.addAt (ids₂.idxOf v) a) := by
  intro buf₁ buf₂ hsame
  obtain ⟨old, hold₁, hold₂⟩ := hsame v hv₁ hv₂
  refine ⟨buf₁.set (ids₁.idxOf v) (old + a), buf₂.set (ids₂.idxOf v) (old + a),
    addAt_eq_ok hold₁ a, addAt_eq_ok hold₂ a, ?_⟩
  intro w hw₁ hw₂
  by_cases hwv : w = v
  · subst hwv
    refine ⟨old + a, ?_, ?_⟩
    · exact List.getElem?_set_self (List.getElem?_eq_some_iff.1 hold₁).1
    · exact List.getElem?_set_self (List.getElem?_eq_some_iff.1 hold₂).1
  · -- positions in a list tell its members apart
    have hne₁ : ids₁.idxOf v ≠ ids₁.idxOf w := fun h => hwv ((List.idxOf_inj hv₁).1 h).symm
    have hne₂ : ids₂.idxOf v ≠ ids₂.idxOf w := fun h => hwv ((List.idxOf_inj hv₂).1 h).symm
    rw [List.getElem?_set_ne hne₁, List.getElem?_set_ne hne₂]
    exact hsame w hw₁ hw₂

/-- One routine after the other. -/
theorem bind (hf : InStep ids₁ ids₂ f f') (hg : InStep ids₁ ids₂ g g') :
    InStep ids₁ ids₂ (fun buf => f buf >>= g) (fun buf => f' buf >>= g') := by
  intro buf₁ buf₂ hsame
  obtain ⟨mid₁, mid₂, hmid₁, hmid₂, hmid⟩ := hf buf₁ buf₂ hsame
  obtain ⟨out₁, out₂, hout₁, hout₂, hout⟩ := hg mid₁ mid₂ hmid
  exact ⟨out₁, out₂, (bind_of_ok hmid₁ g).trans hout₁, (bind_of_ok hmid₂ g').trans hout₂, hout⟩

/-- **Loops are in step if their steps are.** -/
theorem foldlM {ι : Type} {step step' : Buffer R → ι → Except Breach (Buffer R)} {xs : List ι}
    (h : ∀ x ∈ xs, InStep ids₁ ids₂ (step · x) (step' · x)) :
    InStep ids₁ ids₂ (xs.foldlM step ·) (xs.foldlM step' ·) := by
  induction xs with
  | nil => exact fun buf₁ buf₂ hsame => ⟨buf₁, buf₂, rfl, rfl, hsame⟩
  | cons x xs ih =>
    have hrest := ih fun y hy => h y (List.mem_cons_of_mem x hy)
    exact (h x List.mem_cons_self).bind hrest

theorem exists_ofUpdate (h : InStep ids₁ ids₂ f g) {buf₁ buf₂ : Buffer R}
    (hsame : SameEntries ids₁ ids₂ buf₁ buf₂) :
    ∃ out₁ out₂, Fill.ofUpdate f buf₁ = .ok () out₁ ∧ Fill.ofUpdate g buf₂ = .ok () out₂ ∧
      SameEntries ids₁ ids₂ out₁ out₂ := by
  obtain ⟨out₁, out₂, hout₁, hout₂, hout⟩ := h buf₁ buf₂ hsame
  exact ⟨out₁, out₂, Fill.ofUpdate_eq_ok.2 hout₁, Fill.ofUpdate_eq_ok.2 hout₂, hout⟩

end InStep

end Buffers

/-! ## Parts of a flux at common vertices -/

variable {R : Type} [Scalar R]

/-- The vector sources whose flux a level splits by what it reads of the face. -/
inductive Source.SplitsByFace : Level → Source R → Prop
  /-- A constant vector, at every level. -/
  | constant (level : Level) (u : Vec3 R) : SplitsByFace level (.constant (.vector u))
  /-- A vector function, evaluated once on either half of a triangle. -/
  | barySubdiv {f : SpaceTimeFunction R} (hdim : f.dim = 3) :
    SplitsByFace .barySubdiv (.function f)
  /-- A vector function, integrated by a rule over either half of a triangle. -/
  | higher {f : SpaceTimeFunction R} (hdim : f.dim = 3) : SplitsByFace .higher (.function f)

/-- In a buffer with an entry for each vertex of a cell, a vertex of the mesh has an amount. -/
def CellCache.HasAmount (cm : CellCache R) (buf : Buffer R) (v : Nat) (amount : R) : Prop :=
  v ∈ cm.vertexIds ∧ ∀ j : Nat, cm.vertexIds[j]? = some v → buf[j]? = some amount

namespace CellCache

section Sides

variable {m : MeshTables R} {c₁ c₂ k₁ k₂ f : Nat} (h₁ : m.Consistent c₁) (h₂ : m.Consistent c₂)
  (hk₁ : (m.cellFaces.getD c₁ [])[k₁]? = some f) (hk₂ : (m.cellFaces.getD c₂ [])[k₂]? = some f)

include h₁ h₂ hk₁ hk₂

omit [Scalar R] in
/-- The ends of an edge of the face are vertices of both cells. -/
theorem ends_mem_both {e : Nat} (he : e ∈ m.faceEdges.getD f []) :
    ((m.ends e).1 ∈ m.cellVertices.getD c₁ [] ∧ (m.ends e).1 ∈ m.cellVertices.getD c₂ []) ∧
      (m.ends e).2 ∈ m.cellVertices.getD c₁ [] ∧ (m.ends e).2 ∈ m.cellVertices.getD c₂ [] := by
  have hends₁ := h₁.ends_mem e (h₁.faceEdges_mem f (List.mem_of_getElem? hk₁) e he)
  have hends₂ := h₂.ends_mem e (h₂.faceEdges_mem f (List.mem_of_getElem? hk₂) e he)
  exact ⟨⟨hends₁.1, hends₂.1⟩, hends₁.2, hends₂.2⟩

theorem inStep_addToEnds {e : Nat} (he : e ∈ m.faceEdges.getD f []) (a b : R) :
    InStep (m.cellVertices.getD c₁ []) (m.cellVertices.getD c₂ [])
      (addToEnds (m.endPositions c₁ e) a b) (addToEnds (m.endPositions c₂ e) a b) := by
  obtain ⟨hfirst, hsecond⟩ := ends_mem_both h₁ h₂ hk₁ hk₂ he
  exact (InStep.addAt hfirst.1 hfirst.2 a).bind (InStep.addAt hsecond.1 hsecond.2 b)

omit h₁ h₂ hk₁ hk₂ in
/-- The nodes on one half of a triangle depend on the face alone. -/
theorem inStep_addHalfFlux {func : SpaceTimeFunction R} (hdim : func.dim = 3) (t : R)
    (rule : SimplexRule R 3) (e : Nat) {v : Nat} (hv₁ : v ∈ m.cellVertices.getD c₁ [])
    (hv₂ : v ∈ m.cellVertices.getD c₂ []) (x : Vec3 R) :
    InStep (m.cellVertices.getD c₁ []) (m.cellVertices.getD c₂ [])
      (addHalfFlux (m.face f) t func rule (m.faceSide c₁ f e)
        ((m.cellVertices.getD c₁ []).idxOf v) x)
      (addHalfFlux (m.face f) t func rule (m.faceSide c₂ f e)
        ((m.cellVertices.getD c₂ []).idxOf v) x) := by
  rw [funext (addHalfFlux_eq_foldlM hdim rule _ x), funext (addHalfFlux_eq_foldlM hdim rule _ x)]
  exact InStep.foldlM fun s _ => InStep.addAt hv₁ hv₂ _

omit h₁ h₂ hk₁ hk₂ in
/-- Loops over the edges of the face, one in each cell. -/
theorem inStep_sides {step : Buffer R → FaceSide R → Except Breach (Buffer R)}
    (hstep : ∀ e ∈ m.faceEdges.getD f [],
      InStep (m.cellVertices.getD c₁ []) (m.cellVertices.getD c₂ [])
        (step · (m.faceSide c₁ f e)) (step · (m.faceSide c₂ f e))) :
    InStep (m.cellVertices.getD c₁ []) (m.cellVertices.getD c₂ [])
      (fun buf => ((m.faceEdges.getD f []).map (m.faceSide c₁ f)).foldlM step buf)
      (fun buf => ((m.faceEdges.getD f []).map (m.faceSide c₂ f)).foldlM step buf) := by
  simp only [List.foldlM_map]
  exact InStep.foldlM hstep

theorem inStep_constantVertexFlux (u : Vec3 R) :
    InStep (m.cellVertices.getD c₁ []) (m.cellVertices.getD c₂ [])
      ((ofTables m c₁ .all).constantVertexFlux k₁ u)
      ((ofTables m c₂ .all).constantVertexFlux k₂ u) := by
  rw [constantVertexFlux_ofTables h₁ hk₁, constantVertexFlux_ofTables h₂ hk₂]
  exact inStep_sides fun e he => inStep_addToEnds h₁ h₂ hk₁ hk₂ he _ _

/-- **Both cells split a flux in step**: buffers that agree on common vertices still do. -/
theorem exists_vertexFlux {q : Quantity R} {level : Level} (hq : q.source.SplitsByFace level)
    (t : R) {buf₁ buf₂ : Buffer R} (hbuf₁ : (ofTables m c₁ .all).vertexCount ≤ buf₁.length)
    (hbuf₂ : (ofTables m c₂ .all).vertexCount ≤ buf₂.length)
    (hsame : SameEntries (m.cellVertices.getD c₁ []) (m.cellVertices.getD c₂ []) buf₁ buf₂) :
    ∃ out₁ out₂, (ofTables m c₁ .all).vertexFlux q k₁ t level buf₁ = .ok () out₁ ∧
      (ofTables m c₂ .all).vertexFlux q k₂ t level buf₂ = .ok () out₂ ∧
      SameEntries (m.cellVertices.getD c₁ []) (m.cellVertices.getD c₂ []) out₁ out₂ := by
  generalize hsource : q.source = source at hq
  cases hq with
  | constant level u =>
    rw [vertexFlux_constant hsource hbuf₁, vertexFlux_constant hsource hbuf₂]
    exact (inStep_constantVertexFlux h₁ h₂ hk₁ hk₂ u).exists_ofUpdate hsame
  | barySubdiv hdim =>
    rw [vertexFlux_function hsource hdim hbuf₁, vertexFlux_function hsource hdim hbuf₂,
      functionVertexFlux_barySubdiv h₁ hk₁, functionVertexFlux_barySubdiv h₂ hk₂]
    refine (inStep_sides fun e he => ?_).exists_ofUpdate hsame
    simp only [subdividedShares_eq_ok hdim rfl, ok_bind]
    exact inStep_addToEnds h₁ h₂ hk₁ hk₂ he _ _
  | higher hdim =>
    rw [vertexFlux_function hsource hdim hbuf₁, vertexFlux_function hsource hdim hbuf₂,
      functionVertexFlux_higher h₁ hk₁, functionVertexFlux_higher h₂ hk₂]
    refine (inStep_sides fun e he => ?_).exists_ofUpdate hsame
    obtain ⟨hfirst, hsecond⟩ := ends_mem_both h₁ h₂ hk₁ hk₂ he
    exact (inStep_addHalfFlux hdim t _ e hfirst.1 hfirst.2 _).bind
      (inStep_addHalfFlux hdim t _ e hsecond.1 hsecond.2 _)

end Sides

/-- The amount of a vertex is the entry at its position. -/
theorem hasAmount_ofTables {m : MeshTables R} {c v : Nat} (hnd : (m.cellVertices.getD c []).Nodup)
    (hv : v ∈ m.cellVertices.getD c []) {buf : Buffer R} {amount : R}
    (hamount : buf[(m.cellVertices.getD c []).idxOf v]? = some amount) :
    (ofTables m c .all).HasAmount buf v amount := by
  unfold HasAmount
  rw [vertexIds_ofTables (CapabilitySet.contains_all _)]
  refine ⟨hv, fun j hj => ?_⟩
  obtain ⟨hlt, rfl⟩ := List.getElem?_eq_some_iff.1 hj
  rwa [hnd.idxOf_getElem] at hamount

end CellCache

/-- **A shared face looks the same from both cells.**  Averages over a face of two cells are equal
in any arithmetic, and so are fluxes through it unless they are those of a function at the lowest
level; all of them exist for constants and functions of suitable dimensions.  What a split flux
adds to zeros at a vertex of the face is equal, too. -/
theorem CellCache.shared_face {cells : List (List Loop)} {vertices : List (Vec3 R)}
    {m : PolyhedralMesh R} (hm : PolyhedralMesh.build vertices cells = .ok m)
    {c₁ c₂ k₁ k₂ f : Nat} (hk₁ : (m.cellFaces.getD c₁ [])[k₁]? = some f)
    (hk₂ : (m.cellFaces.getD c₂ [])[k₂]? = some f) :
    ∃ cm₁ cm₂ : CellCache R, build m.toMeshTables c₁ .all = .ok cm₁ ∧
      build m.toMeshTables c₂ .all = .ok cm₂ ∧
      (∀ (q : Quantity R) (t : R) (level : Level),
        cm₁.faceAverage q k₁ t level = cm₂.faceAverage q k₂ t level ∧
        ((q.kind = .function → level ≠ .bary) →
          cm₁.faceFlux q k₁ t level = cm₂.faceFlux q k₂ t level ∧
          cm₁.tensorFlux q k₁ t level = cm₂.tensorFlux q k₂ t level)) ∧
      (∀ (q : Quantity R) (t : R) (level : Level), q.source.HasMeans →
        (∀ buf : Buffer R, q.dim ≤ buf.length →
          ∃ out, cm₁.faceAverage q k₁ t level buf = .ok () out) ∧
        (q.dim = 3 → ∃ flux, cm₁.faceFlux q k₁ t level = .ok flux) ∧
        (q.dim = 9 → ∃ flux, cm₁.tensorFlux q k₁ t level = .ok flux)) ∧
      ∀ (q : Quantity R) (t : R) (level : Level) (n₁ n₂ : Nat), q.source.SplitsByFace level →
        cm₁.vertexCount ≤ n₁ → cm₂.vertexCount ≤ n₂ → ∃ out₁ out₂ : Buffer R,
          cm₁.vertexFlux q k₁ t level (List.replicate n₁ 0) = .ok () out₁ ∧
          cm₂.vertexFlux q k₂ t level (List.replicate n₂ 0) = .ok () out₂ ∧
          ∀ v ∈ (Numbering.ofCells cells).loop f, ∃ amount,
            cm₁.HasAmount out₁ v amount ∧ cm₂.HasAmount out₂ v amount := by
  have hf₁ := List.mem_of_getElem? hk₁
  have hf₂ := List.mem_of_getElem? hk₂
  have h₁ := PolyhedralMesh.consistent_of_build hm
    (PolyhedralMesh.lt_cellCount_of_mem_cellFaces hm hf₁)
  have h₂ := PolyhedralMesh.consistent_of_build hm
    (PolyhedralMesh.lt_cellCount_of_mem_cellFaces hm hf₂)
  have hsame := sameFace_ofTables h₁ h₂ hk₁ hk₂
  refine ⟨_, _, build_eq_ofTables h₁ CapabilitySet.closed_all,
    build_eq_ofTables h₂ CapabilitySet.closed_all, fun q t level => ?equal,
    fun q t level hq => ?existence, fun q t level n₁ n₂ hq hn₁ hn₂ => ?parts⟩
  case equal =>
    exact ⟨hsame.faceAverage_eq q t level, fun hlevel =>
      ⟨hsame.faceFlux_eq t hlevel, hsame.tensorFlux_eq t hlevel⟩⟩
  case existence =>
    exact ⟨fun buf hbuf => ⟨_, faceAverage_ofTables h₁ hq level hk₁ hbuf⟩,
      fun hdim => exists_faceFlux h₁ hk₁ hq hdim t level,
      fun hdim => exists_tensorFlux h₁ hk₁ hq hdim t level⟩
  case parts =>
    have hids := CapabilitySet.contains_all .vertexIds
    have hzeros := sameEntries_replicate ((vertexCount_ofTables hids).symm.trans_le hn₁)
      ((vertexCount_ofTables hids).symm.trans_le hn₂) (0 : R)
    obtain ⟨out₁, out₂, hout₁, hout₂, hout⟩ := exists_vertexFlux h₁ h₂ hk₁ hk₂ hq t
      (by rwa [List.length_replicate]) (by rwa [List.length_replicate]) hzeros
    refine ⟨out₁, out₂, hout₁, hout₂, fun v hv => ?_⟩
    have hv₁ := PolyhedralMesh.mem_cellVertices_of_mem_loop hm hf₁ hv
    have hv₂ := PolyhedralMesh.mem_cellVertices_of_mem_loop hm hf₂ hv
    obtain ⟨amount, hamount₁, hamount₂⟩ := hout v hv₁ hv₂
    exact ⟨amount,
      hasAmount_ofTables (PolyhedralMesh.nodup_cellVertices hm c₁) hv₁ hamount₁,
      hasAmount_ofTables (PolyhedralMesh.nodup_cellVertices hm c₂) hv₂ hamount₂⟩

/-! ## Two tetrahedra -/

namespace TwoTetrahedra

/-- Two tetrahedra that share a face, each with a loop of its own for it. -/
def cells : List (List Loop) :=
  [[[0, 2, 1], [0, 1, 3], [0, 3, 2], [1, 2, 3]], [[3, 2, 1], [1, 2, 4], [2, 3, 4], [3, 1, 4]]]

theorem numbering : Numbering.ofCells cells =
    { loops := [[0, 2, 1], [0, 1, 3], [0, 3, 2], [1, 2, 3], [1, 2, 4], [2, 3, 4], [3, 1, 4]]
      edges := [(0, 2), (1, 2), (0, 1), (1, 3), (0, 3), (2, 3), (2, 4), (1, 4), (3, 4)]
      cellFaces := [[0, 1, 2, 3], [3, 4, 5, 6]] } := by
  cbv

/-- The mesh of the two tetrahedra. -/
noncomputable def mesh : PolyhedralMesh ℝ :=
  .assemble [0, ⟨1, 0, 0⟩, ⟨0, 1, 0⟩, ⟨0, 0, 1⟩, ⟨1, 1, 1⟩] (.ofCells cells)

theorem build_eq_ok : PolyhedralMesh.build [0, ⟨1, 0, 0⟩, ⟨0, 1, 0⟩, ⟨0, 0, 1⟩, ⟨1, 1, 1⟩] cells =
    .ok mesh := by
  refine PolyhedralMesh.build_eq_ok.2 ⟨rfl, ?_, rfl⟩
  rw [numbering]
  decide +kernel

/-- The last face of the first cell is the first face of the second. -/
theorem shared : (mesh.cellFaces.getD 0 [])[3]? = some 3 ∧
    (mesh.cellFaces.getD 1 [])[0]? = some 3 := by
  rw [mesh, PolyhedralMesh.cellFaces_eq_mergeSort, PolyhedralMesh.cellFaces_eq_mergeSort,
    numbering]
  cbv

end TwoTetrahedra

/-- A quadratic field that changes in time, at the face between two tetrahedra. -/
theorem shared_face_twoTetrahedra :
    let q : Quantity ℝ := ⟨.face, .function ⟨3, fun t x => #v[x.x * x.y + t, x.z, x.z * x.z]⟩⟩
    ∃ (cm₁ cm₂ : CellCache ℝ) (flux amount : ℝ) (out₁ out₂ : Buffer ℝ),
      CellCache.build TwoTetrahedra.mesh.toMeshTables 0 .all = .ok cm₁ ∧
      CellCache.build TwoTetrahedra.mesh.toMeshTables 1 .all = .ok cm₂ ∧
      cm₁.faceAverage q 3 5 .bary = cm₂.faceAverage q 0 5 .bary ∧
      cm₁.faceFlux q 3 5 .highest = .ok flux ∧ cm₂.faceFlux q 0 5 .highest = .ok flux ∧
      cm₁.vertexFlux q 3 5 .higher (List.replicate cm₁.vertexCount 0) = .ok () out₁ ∧
      cm₂.vertexFlux q 0 5 .higher (List.replicate cm₂.vertexCount 0) = .ok () out₂ ∧
      cm₁.HasAmount out₁ 2 amount ∧ cm₂.HasAmount out₂ 2 amount := by
  intro q
  obtain ⟨hk₁, hk₂⟩ := TwoTetrahedra.shared
  obtain ⟨cm₁, cm₂, hcm₁, hcm₂, hequal, hexists, hparts⟩ :=
    CellCache.shared_face TwoTetrahedra.build_eq_ok hk₁ hk₂
  obtain ⟨flux, hflux⟩ := (hexists q 5 .highest (.inr (.inl rfl))).2.1 rfl
  have hsame := ((hequal q 5 .highest).2 (by simp)).1
  obtain ⟨out₁, out₂, hout₁, hout₂, hamounts⟩ :=
    hparts q 5 .higher cm₁.vertexCount cm₂.vertexCount (.higher rfl) le_rfl le_rfl
  have hv : 2 ∈ (Numbering.ofCells TwoTetrahedra.cells).loop 3 := by
    rw [TwoTetrahedra.numbering]
    decide
  obtain ⟨amount, hamount₁, hamount₂⟩ := hamounts 2 hv
  exact ⟨cm₁, cm₂, flux, amount, out₁, out₂, hcm₁, hcm₂, (hequal q 5 .bary).1, hflux,
    hsame ▸ hflux, hout₁, hout₂, hamount₁, hamount₂⟩

end Polyfield
