import Polyfield.Bulk.BoundaryAverage
import Polyfield.Proofs.CellCalls
import Polyfield.Proofs.FluxSplitting

/-!
# Points of evaluation

Where the routines on a cell evaluate a function.  `FunctionCall` lists these routines and
`FunctionCall.EvaluatesAt` the points of each; nothing else about the function than its values
there is used, in any arithmetic.

* `FunctionCall.run_congr` : functions that agree at the points of a routine give it the same
  result;
* `BulkEvaluator.boundaryAverageOfFunction_congr` : so do functions that agree at the nodes on the
  boundary faces, for their averages.
-/

namespace Polyfield

variable {R : Type} [Scalar R]

/-! ## Nodes -/

namespace SimplexRule

variable {n : Nat} {f g : SpaceTimeFunction R} {t : R}

/-- A point at which a rule evaluates on one of some simplices. -/
def HasNode (rule : SimplexRule R n) (ss : List (Simplex R n)) (x : Vec3 R) : Prop :=
  ∃ s ∈ ss, ∃ p ∈ rule.samples s.corners, p.point = x

theorem HasNode.mono {rule : SimplexRule R n} {ss ss' : List (Simplex R n)} {x : Vec3 R}
    (hx : rule.HasNode ss x) (h : ss ⊆ ss') : rule.HasNode ss' x := by
  obtain ⟨s, hs, hp⟩ := hx
  exact ⟨s, h hs, hp⟩

theorem weightedValues_congr {rule : SimplexRule R n} {corners : Vector (Vec3 R) n}
    (hdim : f.dim = g.dim)
    (h : ∀ p ∈ rule.samples corners, f.components t p.point = g.components t p.point) :
    rule.weightedValues t corners f = rule.weightedValues t corners g := by
  unfold weightedValues
  rw [hdim, List.map_congr_left fun p hp => congrArg (p.weight, ·) (h p hp)]

/-- An integral only depends on the values at the nodes. -/
theorem integrate_congr {rule : SimplexRule R n} {s : Simplex R n} (hdim : f.dim = g.dim)
    (h : ∀ x, rule.HasNode [s] x → f.components t x = g.components t x) :
    rule.integrate t s f = rule.integrate t s g := by
  funext buf
  unfold integrate
  rw [weightedValues_congr hdim fun p hp => h _ ⟨s, List.mem_singleton_self s, p, hp, rfl⟩]

theorem integrateAll_congr {rule : SimplexRule R n} {ss : List (Simplex R n)}
    (hdim : f.dim = g.dim)
    (h : ∀ x, rule.HasNode ss x → f.components t x = g.components t x) :
    rule.integrateAll t ss f = rule.integrateAll t ss g := by
  funext buf
  refine foldlM_congr (fun out s hs => ?_) buf
  rw [integrate_congr hdim fun x hx => h x (hx.mono (by simpa using hs))]

theorem eq_triangle_of_triangleFor {level : Level} {dim : Nat} {rule : SimplexRule R 3}
    (h : triangleFor level dim = .ok rule) : rule = triangle level := by
  obtain ⟨_, -, hrule⟩ := bind_eq_ok.1 h
  exact (Except.ok.inj hrule).symm

theorem eq_tetra_of_tetraFor {level : Level} {dim : Nat} {rule : SimplexRule R 4}
    (h : tetraFor level dim = .ok rule) : rule = tetra level := by
  obtain ⟨_, -, hrule⟩ := bind_eq_ok.1 h
  exact (Except.ok.inj hrule).symm

end SimplexRule

omit [Scalar R] in
/-- Values at points only depend on the values there. -/
theorem SpaceTimeFunction.evaluate_congr {f g : SpaceTimeFunction R} {t : R}
    {points : List (Vec3 R)} (hdim : f.dim = g.dim)
    (h : ∀ x ∈ points, f.components t x = g.components t x) (sel : Selection) (buf : Buffer R) :
    f.evaluate t points sel buf = g.evaluate t points sel buf := by
  have hstep : (fun (e : Nat) (slot : Buffer R) =>
      (do copyTo (f.components t (← fetch points e)) slot)) = fun e slot =>
        (do copyTo (g.components t (← fetch points e)) slot) := by
    funext e slot
    refine bind_congr_of_ok fun x hx => ?_
    rw [h x (List.mem_of_getElem? (fetch_eq_ok.1 hx))]
  unfold evaluate
  rw [hstep, hdim]

namespace CellCache

variable (cm : CellCache R)

/-- A node of the rule of a level on a piece of a face. -/
def FaceNode (level : Level) (k : Nat) (x : Vec3 R) : Prop :=
  ∃ ss, cm.facePieces k = .ok ss ∧ (SimplexRule.triangle level).HasNode ss x

/-- A node of the rule of a level on a piece of the cell. -/
def CellNode (level : Level) (x : Vec3 R) : Prop :=
  ∃ ss, cm.cellPieces = .ok ss ∧ (SimplexRule.tetra level).HasNode ss x

/-- A point at which a flux through a face evaluates a function of `dim` components. -/
def FluxNode (dim : Nat) (level : Level) (k : Nat) (x : Vec3 R) : Prop :=
  ∃ samples, cm.fluxSamples k dim level = .ok samples ∧ ∃ s ∈ samples, s.point = x

/-- A point at which a flux split between vertices evaluates a function. -/
def SplitNode (level : Level) (k : Nat) (x : Vec3 R) : Prop :=
  match level with
  | .bary => x = cm.center
  | .barySubdiv => ∃ face sides, fetch cm.faces k = .ok face ∧ cm.faceSides k = .ok sides ∧
      ∃ side ∈ sides, x ∈ halfCentroids side face.center
  | .higher => ∃ face sides, fetch cm.faces k = .ok face ∧ cm.faceSides k = .ok sides ∧
      ∃ side ∈ sides, (SimplexRule.triangle level).HasNode
        [side.half face.center side.first, side.half face.center side.second] x
  | .highest => False

/-- A point of evaluation that belongs to a face. -/
def FacePoint (dim k : Nat) (x : Vec3 R) : Prop :=
  ∃ level, cm.FaceNode level k x ∨
    level ≠ .bary ∧ (cm.FluxNode dim level k x ∨ cm.SplitNode level k x)

end CellCache

/-! ## Calls -/

/-- The routines on a cell that evaluate a function, each with its arguments but the function and
the time. -/
inductive FunctionCall
  | value
  | functionAtCenter
  | faceAverage (face : Nat) (level : Level)
  | cellAverage (level : Level)
  | allAverages (level : Level)
  | integrateFace (face : Nat) (level : Level)
  | integrateCell (level : Level)
  | integrateCellAndFaces (tetraLevel triangleLevel : Level) (cellEntries : Nat)
  | faceFlux (face : Nat) (level : Level)
  | functionFlux (face : Nat) (level : Level)
  | tensorFlux (face : Nat) (level : Level)
  | vertexFlux (face : Nat) (level : Level)
  | functionVertexFlux (face : Nat) (level : Level)

namespace FunctionCall

/-- Such a routine called with a function at a time. -/
def call (support : Support) (f : SpaceTimeFunction R) (t : R) : FunctionCall → CellCall R
  | value => .value ⟨support, .function f⟩ t
  | functionAtCenter => .functionAtCenter f t
  | faceAverage face level => .faceAverage ⟨support, .function f⟩ face t level
  | cellAverage level => .cellAverage ⟨support, .function f⟩ t level
  | allAverages level => .allAverages ⟨support, .function f⟩ t level
  | integrateFace face level => .integrateFace face t f (.triangle level)
  | integrateCell level => .integrateCell t f (.tetra level)
  | integrateCellAndFaces tetraLevel triangleLevel cellEntries =>
    .integrateCellAndFaces t f (.tetra tetraLevel) (.triangle triangleLevel) cellEntries
  | faceFlux face level => .faceFlux ⟨support, .function f⟩ face t level
  | functionFlux face level => .functionFlux face t f level
  | tensorFlux face level => .tensorFlux ⟨support, .function f⟩ face t level
  | vertexFlux face level => .vertexFlux ⟨support, .function f⟩ face t level
  | functionVertexFlux face level => .functionVertexFlux face t f level

/-- The points at which a routine evaluates a function of `dim` components. -/
def EvaluatesAt (cm : CellCache R) (dim : Nat) : FunctionCall → Vec3 R → Prop
  | value, x | functionAtCenter, x => x = cm.center
  | faceAverage face level, x | integrateFace face level, x => cm.FaceNode level face x
  | cellAverage level, x | integrateCell level, x => cm.CellNode level x
  | allAverages level, x => cm.CellNode level x ∨ ∃ k < cm.faceCount, cm.FaceNode level k x
  | integrateCellAndFaces tetraLevel triangleLevel _, x =>
    cm.CellNode tetraLevel x ∨ ∃ k < cm.faceCount, cm.FaceNode triangleLevel k x
  | faceFlux face level, x | functionFlux face level, x | tensorFlux face level, x =>
    cm.FluxNode dim level face x
  | vertexFlux face level, x | functionVertexFlux face level, x => cm.SplitNode level face x

/-- The face that all points of a routine belong to: that of an average or integral over a face,
and that of a flux unless it takes the value at the cell center. -/
def face? : FunctionCall → Option Nat
  | faceAverage face _ | integrateFace face _ => some face
  | faceFlux face level | functionFlux face level | tensorFlux face level | vertexFlux face level
  | functionVertexFlux face level => if level = .bary then none else some face
  | _ => none

end FunctionCall

/-! ## Agreeing functions -/

namespace CellCache

variable {cm : CellCache R} {f g : SpaceTimeFunction R} {t : R} {k : Nat} {level : Level}
  (hdim : f.dim = g.dim)

include hdim

theorem integrateFace_congr
    (h : ∀ x, cm.FaceNode level k x → f.components t x = g.components t x) :
    cm.integrateFace k t f (.triangle level) = cm.integrateFace k t g (.triangle level) := by
  funext buf
  unfold integrateFace
  rw [hdim]
  refine bind_congr_of_ok fun _ _ => ?_
  split
  · rfl
  · refine bind_congr_of_ok fun ss hss => ?_
    rw [SimplexRule.integrateAll_congr hdim fun x hx => h x ⟨ss, hss, hx⟩]

theorem integrateCell_congr
    (h : ∀ x, cm.CellNode level x → f.components t x = g.components t x) :
    cm.integrateCell t f (.tetra level) = cm.integrateCell t g (.tetra level) := by
  funext buf
  unfold integrateCell
  rw [hdim]
  refine bind_congr_of_ok fun _ _ => ?_
  split
  · rfl
  · refine bind_congr_of_ok fun ss hss => ?_
    rw [SimplexRule.integrateAll_congr hdim fun x hx => h x ⟨ss, hss, hx⟩]

omit hdim

omit [Scalar R] in
/-- The triangle of a face is its only piece. -/
theorem facePieces_of_faceTriangle {s : Simplex R 3} (h : cm.faceTriangle k = .ok s) :
    cm.facePieces k = .ok [s] := by
  obtain ⟨vs, hvs, -⟩ := bind_eq_ok.1 h
  obtain ⟨edges, hedges, hthree⟩ := bind_eq_ok.1 hvs
  have hlen : edges.length = 3 := by
    match edges, hthree with
    | [_, _, _], _ => rfl
  rw [facePieces, hedges, ok_bind, if_pos hlen, h]
  rfl

/-- The tetrahedra over a face are pieces of the cell. -/
theorem conePieces_subset {all ss : List (Simplex R 4)} (hall : cm.cellPieces = .ok all)
    (hshape : cm.shape ≠ .tetra) (hk : k < cm.faceCount) (hss : cm.conePieces k = .ok ss) :
    ss ⊆ all := by
  rw [cellPieces, if_neg hshape] at hall
  obtain ⟨parts, hparts, hflat⟩ := bind_eq_ok.1 hall
  obtain rfl := Except.ok.inj hflat
  have hlen : k < parts.length := by
    rwa [length_of_mapM_eq_ok hparts, List.length_range]
  have hk := getElem_of_mapM_eq_ok hparts (List.length_range.symm ▸ hk) hlen
  rw [List.getElem_range, hss] at hk
  rw [Except.ok.inj hk]
  exact fun s hs => List.mem_flatten.2 ⟨_, List.getElem_mem hlen, hs⟩

include hdim

theorem integrateCellAndFaces_congr {tetraLevel triangleLevel : Level}
    {all : List (Simplex R 4)} (hall : cm.cellPieces = .ok all)
    (hcell : ∀ x, cm.CellNode tetraLevel x → f.components t x = g.components t x)
    (hface : ∀ k < cm.faceCount, ∀ x, cm.FaceNode triangleLevel k x →
      f.components t x = g.components t x) (cellBuf faceBuf : Buffer R) :
    cm.integrateCellAndFaces t f (.tetra tetraLevel) (.triangle triangleLevel) cellBuf faceBuf =
      cm.integrateCellAndFaces t g (.tetra tetraLevel) (.triangle triangleLevel) cellBuf
        faceBuf := by
  have hpieces : ∀ k < cm.faceCount, ∀ ss, cm.facePieces k = .ok ss →
      addFaceIntegral t f (.triangle triangleLevel) k ss =
        addFaceIntegral t g (.triangle triangleLevel) k ss := by
    intro k hk ss hss
    funext buf
    unfold addFaceIntegral
    rw [hdim, SimplexRule.integrateAll_congr hdim fun x hx => hface k hk x ⟨ss, hss, hx⟩]
  unfold integrateCellAndFaces
  rw [hdim]
  refine bind_congr_of_ok fun _ _ => ite_congr rfl (fun _ => rfl) fun _ => ?_
  by_cases htetra : cm.shape = .tetra
  · refine (if_pos htetra).trans (Eq.trans ?_ (if_pos htetra).symm)
    refine bind_congr_of_ok fun s hs => ?_
    have hall : cm.cellPieces = .ok [s] := by
      rw [cellPieces, if_pos htetra, hs]
      rfl
    rw [SimplexRule.integrate_congr hdim fun x hx => hcell x ⟨[s], hall, hx⟩]
    refine bind_congr_of_ok fun out _ => congrArg (· >>= _) (foldlM_congr (fun out k hk => ?_) _)
    refine bind_congr_of_ok fun s hs => ?_
    rw [hpieces k (List.mem_range.1 hk) [s] (facePieces_of_faceTriangle hs)]
  · refine (if_neg htetra).trans (Eq.trans ?_ (if_neg htetra).symm)
    refine foldlM_congr (fun outs k hk => ?_) _
    have hlt := List.mem_range.1 hk
    refine bind_congr_of_ok fun ss hss => bind_congr_of_ok fun cones hcones => ?_
    have hsub := conePieces_subset hall htetra hlt hcones
    rw [hpieces k hlt ss hss, SimplexRule.integrateAll_congr hdim fun x hx =>
      hcell x ⟨all, hall, hx.mono hsub⟩]

/-! ### Averages -/

theorem faceAverage_congr (support : Support)
    (h : ∀ x, cm.FaceNode level k x → f.components t x = g.components t x) :
    cm.faceAverage ⟨support, .function f⟩ k t level =
      cm.faceAverage ⟨support, .function g⟩ k t level := by
  have hmean : cm.averageFunctionOnFace k t f (.triangle level) =
      cm.averageFunctionOnFace k t g (.triangle level) := by
    funext slot
    unfold averageFunctionOnFace
    rw [integrateFace_congr hdim h]
  unfold faceAverage
  dsimp only
  rw [hdim]
  refine Fill.lift_bind_congr fun rule hrule => ?_
  rw [SimplexRule.eq_triangle_of_triangleFor hrule, hmean]

theorem cellAverage_congr (support : Support)
    (h : ∀ x, cm.CellNode level x → f.components t x = g.components t x) :
    cm.cellAverage ⟨support, .function f⟩ t level =
      cm.cellAverage ⟨support, .function g⟩ t level := by
  have hmean : cm.averageFunctionOnCell t f (.tetra level) =
      cm.averageFunctionOnCell t g (.tetra level) := by
    funext slot
    unfold averageFunctionOnCell
    rw [integrateCell_congr hdim h]
  unfold cellAverage
  dsimp only
  rw [hdim]
  refine Fill.lift_bind_congr fun rule hrule => ?_
  rw [SimplexRule.eq_tetra_of_tetraFor hrule, hmean]

theorem allAverages_congr (support : Support) {all : List (Simplex R 4)}
    (hall : cm.cellPieces = .ok all)
    (hcell : ∀ x, cm.CellNode level x → f.components t x = g.components t x)
    (hface : ∀ k < cm.faceCount, ∀ x, cm.FaceNode level k x →
      f.components t x = g.components t x) :
    cm.allAverages ⟨support, .function f⟩ t level =
      cm.allAverages ⟨support, .function g⟩ t level := by
  have hmeans : cm.averageFunctionOnAll t f (.tetra level) (.triangle level) =
      cm.averageFunctionOnAll t g (.tetra level) (.triangle level) := by
    funext slot
    unfold averageFunctionOnAll
    simp only [integrateCellAndFaces_congr hdim hall hcell hface, hdim]
  unfold allAverages
  dsimp only
  rw [hdim]
  refine Fill.lift_bind_congr fun tetraRule htetra => Fill.lift_bind_congr fun rule hrule => ?_
  rw [SimplexRule.eq_tetra_of_tetraFor htetra, SimplexRule.eq_triangle_of_triangleFor hrule,
    hmeans]

/-! ### Fluxes -/

omit [Scalar R] in
theorem componentsAt_congr {x : Vec3 R} (h : f.components t x = g.components t x) :
    componentsAt f t x = componentsAt g t x := by
  unfold componentsAt
  rw [hdim, h]

theorem functionFlux_congr
    (h : ∀ x, cm.FluxNode f.dim level k x → f.components t x = g.components t x) :
    cm.functionFlux k t f level = cm.functionFlux k t g level := by
  unfold functionFlux
  rw [← hdim]
  refine bind_congr_of_ok fun ss hss => bind_congr_of_ok fun face _ => ?_
  refine foldlM_congr (fun flux s hs => ?_) 0
  rw [componentsAt_congr hdim (h _ ⟨ss, hss, s, hs, rfl⟩)]

theorem functionTensorFlux_congr
    (h : ∀ x, cm.FluxNode f.dim level k x → f.components t x = g.components t x) :
    cm.functionTensorFlux k t f level = cm.functionTensorFlux k t g level := by
  unfold functionTensorFlux
  rw [← hdim]
  refine bind_congr_of_ok fun ss hss => bind_congr_of_ok fun face _ => ?_
  refine foldlM_congr (fun flux s hs => ?_) 0
  rw [componentsAt_congr hdim (h _ ⟨ss, hss, s, hs, rfl⟩)]

theorem addHalfFlux_congr {face : EntityGeometry R} {rule : SimplexRule R 3} {side : FaceSide R}
    {v : Nat} {x : Vec3 R}
    (h : ∀ y, rule.HasNode [side.half face.center x] y → f.components t y = g.components t y) :
    addHalfFlux face t f rule side v x = addHalfFlux face t g rule side v x := by
  funext buf
  have hvalues := SimplexRule.weightedValues_congr hdim fun p hp =>
    h _ ⟨_, List.mem_singleton_self _, p, hp, rfl⟩
  exact congrArg (· >>= _) hvalues

theorem functionVertexFlux_congr
    (h : ∀ x, cm.SplitNode level k x → f.components t x = g.components t x) :
    cm.functionVertexFlux k t f level = cm.functionVertexFlux k t g level := by
  unfold functionVertexFlux
  cases level with
  | bary =>
    have hcenter : cm.vectorAtCenter t f = cm.vectorAtCenter t g := by
      unfold vectorAtCenter
      rw [SpaceTimeFunction.evaluate_congr hdim fun x hx => h x (List.mem_singleton.1 hx)]
    simp only [hcenter]
  | barySubdiv =>
    refine congrArg Fill.ofUpdate (funext fun buf => bind_congr_of_ok fun _ _ => ?_)
    refine bind_congr_of_ok fun face hface => bind_congr_of_ok fun sides hsides => ?_
    refine foldlM_congr (fun out side hside => ?_) buf
    have hshares : subdividedShares face t f side = subdividedShares face t g side := by
      unfold subdividedShares
      rw [SpaceTimeFunction.evaluate_congr hdim fun x hx =>
        h x ⟨face, sides, hface, hsides, side, hside, hx⟩]
    rw [hshares]
  | higher =>
    refine congrArg Fill.ofUpdate (funext fun buf => bind_congr_of_ok fun _ _ => ?_)
    refine bind_congr_of_ok fun face hface => bind_congr_of_ok fun sides hsides => ?_
    refine foldlM_congr (fun out side hside => ?_) buf
    have hhalf : ∀ v, ∀ x ∈ [side.first, side.second],
        addHalfFlux face t f (.triangle .higher) side v x =
          addHalfFlux face t g (.triangle .higher) side v x := by
      intro v x hx
      refine addHalfFlux_congr hdim fun y hy =>
        h y ⟨face, sides, hface, hsides, side, hside, hy.mono ?_⟩
      exact List.cons_subset.2 ⟨List.mem_map_of_mem hx, List.nil_subset _⟩
    simp only [hhalf _ side.first (by simp), hhalf _ side.second (by simp)]
  | highest => rfl

end CellCache

namespace FunctionCall

/-- **A routine on a cell uses nothing of a function but its values at the points of the
routine**: functions that agree there give the same result. -/
theorem run_congr {cm : CellCache R} {f g : SpaceTimeFunction R} {t : R}
    {all : List (Simplex R 4)} (hall : cm.cellPieces = .ok all) (support : Support)
    (hdim : f.dim = g.dim) (call : FunctionCall)
    (h : ∀ x, call.EvaluatesAt cm f.dim x → f.components t x = g.components t x) :
    (call.call support f t).run cm = (call.call support g t).run cm := by
  have hcenter (hx : f.components t cm.center = g.components t cm.center) :
      cm.functionAtCenter f t = cm.functionAtCenter g t := by
    funext buf
    refine SpaceTimeFunction.evaluate_congr hdim (fun x hx => ?_) _ _
    rwa [List.mem_singleton.1 hx]
  cases call with
  | value => exact congrArg (Fill.done ∘ Fill.ofUpdate) (hcenter (h _ rfl))
  | functionAtCenter => exact congrArg (Fill.done ∘ Fill.ofUpdate) (hcenter (h _ rfl))
  | faceAverage face level =>
    exact congrArg Fill.done (CellCache.faceAverage_congr hdim support h)
  | cellAverage level => exact congrArg Fill.done (CellCache.cellAverage_congr hdim support h)
  | allAverages level =>
    exact congrArg Fill.done (CellCache.allAverages_congr hdim support hall
      (fun x hx => h x (.inl hx)) fun k hk x hx => h x (.inr ⟨k, hk, hx⟩))
  | integrateFace face level =>
    exact congrArg (Fill.done ∘ Fill.ofUpdate) (CellCache.integrateFace_congr hdim h)
  | integrateCell level =>
    exact congrArg (Fill.done ∘ Fill.ofUpdate) (CellCache.integrateCell_congr hdim h)
  | integrateCellAndFaces tetraLevel triangleLevel cellEntries =>
    have hboth := CellCache.integrateCellAndFaces_congr hdim hall (fun x hx => h x (.inl hx))
      fun k hk x hx => h x (.inr ⟨k, hk, hx⟩)
    simp only [call, CellCall.run, hboth]
  | faceFlux face level =>
    have hflux := CellCache.functionFlux_congr hdim h
    simp only [call, CellCall.run, CellCache.faceFlux, Quantity.dim, Source.dim, hdim, hflux]
  | functionFlux face level =>
    exact congrArg (Fill.returning .number) (CellCache.functionFlux_congr hdim h)
  | tensorFlux face level =>
    have hflux := CellCache.functionTensorFlux_congr hdim h
    simp only [call, CellCall.run, CellCache.tensorFlux, Quantity.dim, Source.dim, hdim, hflux]
  | vertexFlux face level =>
    have hflux := CellCache.functionVertexFlux_congr hdim h
    simp only [call, CellCall.run, CellCache.vertexFlux, Quantity.dim, Source.dim, hdim, hflux]
  | functionVertexFlux face level =>
    exact congrArg Fill.done (CellCache.functionVertexFlux_congr hdim h)

end FunctionCall

/-! ## Boundary faces -/

/-- A node of the rule of a level on a piece of a boundary face. -/
def MeshTables.BoundaryNode (m : MeshTables R) (level : Level) (bf : Nat) (x : Vec3 R) : Prop :=
  ∃ face ss, fetch m.boundaryFaces bf = .ok face ∧ m.facePieces face = .ok ss ∧
    (SimplexRule.triangle level).HasNode ss x

namespace BulkEvaluator

variable {ev : BulkEvaluator R} {f g : SpaceTimeFunction R} {t : R} {level : Level}
  (hdim : f.dim = g.dim)

include hdim

/-- The average over a boundary face only depends on the values at the nodes on it. -/
theorem averageFunctionOn_congr {bf : Nat}
    (h : ∀ x, ev.mesh.BoundaryNode level bf x → f.components t x = g.components t x) :
    ev.averageFunctionOn f t (.triangle level) bf =
      ev.averageFunctionOn g t (.triangle level) bf := by
  funext slot
  unfold averageFunctionOn
  refine bind_congr_of_ok fun face hface => bind_congr_of_ok fun ss hss => ?_
  rw [SimplexRule.integrateAll_congr hdim fun x hx => h x ⟨face, ss, hface, hss, hx⟩]

theorem boundaryAverageOfFunction_congr
    (h : ∀ bf x, ev.mesh.BoundaryNode level bf x → f.components t x = g.components t x)
    (sel : Selection) :
    ev.boundaryAverageOfFunction f sel t level = ev.boundaryAverageOfFunction g sel t level := by
  have hmean : ev.averageFunctionOn f t (.triangle level) =
      ev.averageFunctionOn g t (.triangle level) :=
    funext fun bf => averageFunctionOn_congr hdim (h bf)
  unfold boundaryAverageOfFunction
  rw [hdim]
  refine Fill.lift_bind_congr fun rule hrule => ?_
  rw [SimplexRule.eq_triangle_of_triangleFor hrule, hmean]

end BulkEvaluator

end Polyfield
