import Polyfield.Proofs.BufferParts

/-!
# Values at points of a cell

A function is evaluated at each point.  A constant, an array or a field is evaluated once, for the
cell, and every point is given that value: the slots of the points are then copies of the first
one.  Whatever keeps the cell from having a value keeps the points from having values, too.

* `Fill.Puts` : a routine that puts the outcome of a computation in front of the rest of a buffer;
* `Fill.Puts.repeated` : the slots of all points from the slot of the first;
* `CellCache.exists_puts` : the value of a cell and the values at its points have one origin;
* `CellCache.values_at_points` : what every slot holds, and which calls fail.
-/

namespace Polyfield

open Selection

variable {R : Type}

/-! ## Routines that put values in front -/

/-- Put values in place of the first entries of a buffer, or fail where there are none. -/
def Fill.putFirst (x : Except Fault (List R)) : Fill R Unit := fun buf =>
  match x with
  | .ok values => .ok () (values ++ buf.drop values.length)
  | .error e => .error e buf

/-- A routine that, on every buffer with room for them, puts the `width` values of a computation in
place of the first entries, and fails if the computation does. -/
structure Fill.Puts (width : Nat) (x : Except Fault (List R)) (m : Fill R Unit) : Prop where
  length_eq : ∀ values, x = .ok values → values.length = width
  run_eq : ∀ buf : Buffer R, width ≤ buf.length → m buf = Fill.putFirst x buf

namespace Fill.Puts

variable {width dim n : Nat} {x : Except Fault (List R)} {m : Fill R Unit}

/-- What a routine does on one buffer tells what its computation gave. -/
theorem eq_error (h : Puts width x m) {buf out : Buffer R} {e : Fault} (hbuf : width ≤ buf.length)
    (hrun : m buf = .error e out) : x = .error e := by
  rw [h.run_eq buf hbuf] at hrun
  cases x with
  | error e' =>
    cases hrun
    rfl
  | ok values => cases hrun

theorem eq_ok (h : Puts width x m) {buf out : Buffer R} (hbuf : width ≤ buf.length)
    (hrun : m buf = .ok () out) : x = .ok (out.take width) := by
  rw [h.run_eq buf hbuf] at hrun
  cases x with
  | error e => cases hrun
  | ok values =>
    cases hrun
    rw [List.take_left' (h.length_eq values rfl)]

theorem of_ok {values : List R} {f : Buffer R → Except Breach (Buffer R)}
    (hlen : values.length = width)
    (hf : ∀ buf, width ≤ buf.length → f buf = .ok (values ++ buf.drop width)) :
    Puts width (.ok values) (ofUpdate f) where
  length_eq := by
    rintro _ ⟨⟩
    exact hlen
  run_eq buf hbuf := by
    rw [ofUpdate_eq_ok.2 (hf buf hbuf), putFirst, hlen]

theorem of_error {b : Breach} {f : Buffer R → Except Breach (Buffer R)}
    (hf : ∀ buf, width ≤ buf.length → f buf = .error b) :
    Puts width (.error (.breached b)) (ofUpdate f) where
  length_eq := nofun
  run_eq buf hbuf := by
    rw [ofUpdate, hf buf hbuf]
    rfl

theorem of_refuse (r : Refusal) :
    Puts width (.error (.refused r)) (liftM (refuse r : Except Fault Unit) : Fill R Unit) where
  length_eq := nofun
  run_eq _ _ := rfl

/-- A slot at the front, filled with values that do not depend on what it held. -/
theorem exists_updateFirst {f : Nat → Buffer R → Except Breach (Buffer R)}
    {val : Nat → Except Breach (List R)} (h : Writes dim f val) (e : Nat) :
    ∃ x, Puts dim x (ofUpdate (updateFirst dim (f e))) := by
  have hslot : ∀ buf : Buffer R, dim ≤ buf.length → f e (buf.take dim) = val e :=
    fun buf hbuf => h.eq e _ (List.length_take_of_le hbuf)
  cases hval : val e with
  | error b =>
    refine ⟨_, of_error (b := b) fun buf hbuf => ?_⟩
    rw [updateFirst, updateSlot, if_pos (by omega), List.drop_zero, hslot buf hbuf, hval]
    rfl
  | ok values =>
    refine ⟨_, of_ok (h.length_eq e values hval) fun buf hbuf => ?_⟩
    exact updateFirst_eq_ok.2 ⟨hbuf, values, (hslot buf hbuf).trans hval, rfl⟩

/-- A step that does not look at the buffer, and then a routine. -/
theorem exists_read {α : Type} {y : Except Breach α} {k : α → Buffer R → Except Breach (Buffer R)}
    (h : ∀ a, ∃ x, Puts width x (ofUpdate (k a))) :
    ∃ x, Puts width x (ofUpdate fun buf => y >>= fun a => k a buf) := by
  cases y with
  | error b => exact ⟨_, of_error (b := b) fun _ _ => rfl⟩
  | ok a => exact h a

/-- A routine that is run on the first entries alone. -/
theorem onFirst (h : Puts width x m) : Puts width x (Fill.onFirst width m) where
  length_eq := h.length_eq
  run_eq buf hbuf := by
    have htake : (buf.take width).length = width := List.length_take_of_le hbuf
    rw [Fill.onFirst, if_pos hbuf, h.run_eq _ htake.ge]
    cases hx : x with
    | error e =>
      show EStateM.Result.error e (buf.take width ++ buf.drop width) = .error e buf
      rw [List.take_append_drop]
    | ok values =>
      have hlen := h.length_eq values hx
      have hall : (buf.take width).drop values.length = [] :=
        List.drop_eq_nil_of_le (by omega)
      show EStateM.Result.ok () (values ++ (buf.take width).drop values.length ++
        buf.drop width) = .ok () (values ++ buf.drop values.length)
      rw [hall, List.append_nil, hlen]

end Fill.Puts

/-- **The values of the first point are given to all points.** -/
theorem Fill.Puts.repeated {dim n : Nat} (hn : n ≠ 0) {x : Except Fault (List R)}
    {m : Fill R Unit} (h : Puts dim x m) :
    Puts (dim * n) (x.map fun values => (List.replicate n values).flatten)
      (do Fill.onFirst dim m; Fill.ofUpdate (CellCache.repeatFirstPoint dim n)) where
  length_eq := by
    intro values hvalues
    cases hx : x with
    | error e =>
      rw [hx] at hvalues
      cases hvalues
    | ok v =>
      rw [hx] at hvalues
      cases hvalues
      simp [h.length_eq v hx, Nat.mul_comm]
  run_eq buf hbuf := by
    have hle : dim ≤ dim * n := Nat.le_mul_of_pos_right dim (Nat.pos_of_ne_zero hn)
    have hfirst := h.onFirst.run_eq buf (hle.trans hbuf)
    cases hx : x with
    | error e =>
      rw [hx] at hfirst
      exact Fill.bind_of_run_error hfirst
    | ok v =>
      have hlen := h.length_eq v hx
      rw [hx] at hfirst
      refine (Fill.bind_of_run_ok hfirst).trans (Fill.ofUpdate_eq_ok.2 ?_)
      have hall : (List.replicate n v).flatten.length = dim * n := by
        simp [hlen, Nat.mul_comm]
      rw [hlen, CellCache.repeatFirstPoint_eq_ok hn hlen hbuf, hall]

/-! ## The value of a cell -/

variable [Scalar R]

namespace CellCache

variable (cm : CellCache R)

theorem exists_puts_averageVertices (values : List R) (stride : Nat) :
    ∃ x, Fill.Puts stride x (.ofUpdate (cm.averageVertices values stride)) := by
  have hwrites : Writes stride
      (fun (_ : Nat) _ => weightedVertexSum values stride (cm.vertexIds.zip cm.vertexWeights))
      fun _ => weightedVertexSum values stride (cm.vertexIds.zip cm.vertexWeights) :=
    ⟨fun _ _ _ => rfl, fun _ _ => length_weightedVertexSum⟩
  exact Fill.Puts.exists_read fun _ => Fill.Puts.exists_updateFirst hwrites 0

theorem exists_puts_arrayValue (a : ValueArray R) : ∃ x, Fill.Puts a.dim x (cm.arrayValue a) := by
  unfold arrayValue ValueArray.dim
  cases a.location with
  | cell => exact Fill.Puts.exists_updateFirst a.writes_entity cm.cell
  | vertex => exact cm.exists_puts_averageVertices a.values a.stride
  | dualFaceByCell =>
    refine Fill.Puts.exists_read fun fluxes => Fill.Puts.exists_read fun _ => ?_
    exact ⟨_, .of_ok rfl fun buf hbuf => overwriteFirst_eq_ok hbuf⟩
  | face => exact ⟨_, .of_refuse _⟩
  | boundaryFace => exact ⟨_, .of_refuse _⟩

theorem exists_puts_fieldValue (f : ValueField R) : ∃ x, Fill.Puts f.dim x (cm.fieldValue f) := by
  unfold fieldValue
  cases f.location with
  | cell => exact Fill.Puts.exists_updateFirst f.writes_entity cm.cell
  | vertex => exact cm.exists_puts_averageVertices f.values f.dim
  | dualFaceByCell => exact ⟨_, .of_refuse _⟩
  | face => exact ⟨_, .of_refuse _⟩
  | boundaryFace => exact ⟨_, .of_refuse _⟩

end CellCache

/-! ## The values at its points -/

/-- The slots of some points hold their values, component by component, and the rest of the buffer
is as it was. -/
structure HoldsAtPoints (dim : Nat) (points : List (Vec3 R)) (value : Vec3 R → List R)
    (buf out : Buffer R) : Prop where
  length_eq : out.length = buf.length
  entry : ∀ i x, points[i]? = some x → ∀ k < dim, out[dim * i + k]? = (value x)[k]?
  frame : ∀ j, dim * points.length ≤ j → out[j]? = buf[j]?

omit [Scalar R] in
theorem holdsAtPoints_flatten {dim : Nat} {points : List (Vec3 R)} {value : Vec3 R → List R}
    (hvalue : ∀ x, (value x).length = dim) {buf : Buffer R}
    (hbuf : dim * points.length ≤ buf.length) :
    HoldsAtPoints dim points value buf
      ((points.map value).flatten ++ buf.drop (dim * points.length)) := by
  have hall : ∀ v ∈ points.map value, v.length = dim := by
    intro v hv
    obtain ⟨x, -, rfl⟩ := List.mem_map.1 hv
    exact hvalue x
  have hlen := length_flatten_of_forall hall
  rw [List.length_map] at hlen
  constructor
  · rw [List.length_append, hlen, List.length_drop]
    omega
  · intro i x hi k hk
    have hlt : i < points.length := (List.getElem?_eq_some_iff.1 hi).1
    have hentry : dim * i + k < dim * points.length :=
      Nat.lt_of_lt_of_le (by rw [Nat.mul_succ]; omega) (Nat.mul_le_mul_left dim hlt)
    rw [List.getElem?_append_left (by omega), getElem?_flatten_slot hall i hk, List.getElem?_map, hi]
    rfl
  · intro j hj
    rw [List.getElem?_append_right (by omega), hlen, List.getElem?_drop, Nat.add_sub_cancel' hj]

/-- The value that a point of a cell is given, if the cell has the value `center`: that of the
cell, unless the quantity is a function. -/
def Source.pointValue (s : Source R) (t : R) (center : List R) (x : Vec3 R) : List R :=
  match s with
  | function f => f.components t x
  | _ => center

omit [Scalar R] in
theorem Source.length_pointValue (s : Source R) (t : R) {center : List R}
    (hcenter : center.length = s.dim) (x : Vec3 R) : (s.pointValue t center x).length = s.dim := by
  cases s with
  | function f => exact f.length_components t x
  | constant v => exact hcenter
  | array a => exact hcenter
  | field f => exact hcenter

namespace CellCache

variable (cm : CellCache R)

omit [Scalar R] in
theorem puts_constantAtPoints (v : Value R) (n : Nat) :
    Fill.Puts (v.dim * n) (.ok (List.replicate n v.components).flatten)
      (.ofUpdate (constantAtPoints v n)) := by
  refine .of_ok (by simp [Nat.mul_comm]) fun buf hbuf => ?_
  refine (forEach_all_eq_ok (writes_writeTo v)).2 ⟨hbuf, v.dim_pos.ne', _, ?_, rfl⟩
  have hvalues : (List.range n).mapM (fun _ => (.ok v.components : Except Breach (List R))) =
      .ok ((List.range n).map fun _ => v.components) := mapM_eq_map fun _ _ => rfl
  rwa [List.map_const', List.length_range] at hvalues

omit [Scalar R] in
theorem puts_functionAtPoints {f : SpaceTimeFunction R} (hdim : f.dim ≠ 0)
    (points : List (Vec3 R)) (t : R) :
    Fill.Puts (f.dim * points.length) (.ok (points.map (f.components t)).flatten)
      (.ofUpdate (functionAtPoints f points t)) := by
  have hall : ∀ v ∈ points.map (f.components t), v.length = f.dim := by
    intro v hv
    obtain ⟨x, -, rfl⟩ := List.mem_map.1 hv
    exact f.length_components t x
  refine .of_ok (by rw [length_flatten_of_forall hall, List.length_map]) fun buf hbuf => ?_
  refine (forEach_all_eq_ok (f.writes_componentsAt t points)).2 ⟨hbuf, hdim, _, ?_, rfl⟩
  refine mapM_range_eq_map fun k x hk => ?_
  rw [SpaceTimeFunction.componentsAt, fetch_eq_ok.2 hk]
  rfl

/-- **The value of a cell and the values at its points have one origin.** -/
theorem exists_puts {q : Quantity R} (hdim : 1 ≤ q.dim) (t : R) {points : List (Vec3 R)}
    (hpoints : points ≠ []) : ∃ x, Fill.Puts q.dim x (cm.value q t) ∧
      Fill.Puts (q.dim * points.length)
        (x.map fun center => (points.map (q.source.pointValue t center)).flatten)
        (cm.valueAtPoints q points t) := by
  have hn : points.length ≠ 0 := fun h => hpoints (List.length_eq_zero_iff.1 h)
  obtain ⟨support, source⟩ := q
  cases source with
  | constant v =>
    refine ⟨.ok v.components, .of_ok v.length_components fun _ => Value.writeTo_eq_ok, ?_⟩
    have hputs := puts_constantAtPoints v points.length
    rwa [← List.map_const'] at hputs
  | function f =>
    have hdim : f.dim ≠ 0 := Nat.ne_of_gt hdim
    have hcenter := puts_functionAtPoints hdim [cm.center] t
    rw [List.length_singleton, Nat.mul_one] at hcenter
    exact ⟨_, hcenter, puts_functionAtPoints hdim points t⟩
  | array a =>
    obtain ⟨x, hx⟩ := cm.exists_puts_arrayValue a
    refine ⟨x, hx, ?_⟩
    show Fill.Puts (a.dim * points.length) (x.map fun center => (points.map fun _ => center).flatten)
      (cm.arrayAtPoints a points.length)
    simp only [arrayAtPoints, if_neg hn, List.map_const']
    exact hx.repeated hn
  | field f =>
    obtain ⟨x, hx⟩ := cm.exists_puts_fieldValue f
    refine ⟨x, hx, ?_⟩
    show Fill.Puts (f.dim * points.length) (x.map fun center => (points.map fun _ => center).flatten)
      (cm.fieldAtPoints f points.length)
    simp only [fieldAtPoints, if_neg hn, List.map_const']
    exact hx.repeated hn

/-- **Values at points fill every slot.**  On every cache, the values of a quantity with components
at some points of the cell fail as the value of the cell does, and a refusal leaves the buffer as
it was.  Where the cell has a value, the slot of each point holds it, or what the function gives at
the point, and the rest of the buffer is as it was.  Vectors at points are the same for sources
with three components, and are refused for all others. -/
theorem values_at_points (t : R) {points : List (Vec3 R)} (hpoints : points ≠ []) :
    (∀ (q : Quantity R) (first buf : Buffer R), 1 ≤ q.dim → q.dim ≤ first.length →
      q.dim * points.length ≤ buf.length →
        (∀ e left, cm.value q t first = .error e left → ∃ out,
          cm.valueAtPoints q points t buf = .error e out ∧ ∀ r, e = .refused r → out = buf) ∧
        ∀ center, cm.value q t first = .ok () center → ∃ out,
          cm.valueAtPoints q points t buf = .ok () out ∧
            HoldsAtPoints q.dim points (q.source.pointValue t (center.take q.dim)) buf out) ∧
    ∀ buf : Buffer R,
      (∀ s v, Fill.ofUpdate (vectorAtPoints v points.length) buf =
        cm.valueAtPoints ⟨s, .constant (.vector v)⟩ points t buf) ∧
      (∀ s a, a.location = .dualFaceByCell ∨ a.stride = 3 →
        cm.vectorArrayAtPoints a points.length buf = cm.valueAtPoints ⟨s, .array a⟩ points t buf) ∧
      (∀ a, ¬(a.location = .dualFaceByCell ∨ a.stride = 3) →
        cm.vectorArrayAtPoints a points.length buf =
          .error (.refused (.invalidDimension .vectorArrayAtPoints a.stride)) buf) ∧
      (∀ s f, f.dim = 3 →
        cm.vectorFieldAtPoints f points.length buf = cm.valueAtPoints ⟨s, .field f⟩ points t buf) ∧
      ∀ f, f.dim ≠ 3 → cm.vectorFieldAtPoints f points.length buf =
        .error (.refused (.invalidDimension .vectorFieldAtPoints f.dim)) buf := by
  constructor
  · intro q first buf hdim hfirst hbuf
    obtain ⟨x, hcell, hall⟩ := cm.exists_puts hdim t hpoints
    constructor
    · intro e left hrun
      have hx := hcell.eq_error hfirst hrun
      have hfail : cm.valueAtPoints q points t buf = .error e buf := by
        rw [hall.run_eq buf hbuf, hx]
        rfl
      exact ⟨buf, hfail, fun _ _ => rfl⟩
    · intro center hrun
      have hx := hcell.eq_ok hfirst hrun
      have hvalue : ∀ p, (q.source.pointValue t (center.take q.dim) p).length = q.dim :=
        q.source.length_pointValue t (hcell.length_eq _ hx)
      rw [hx] at hall
      refine ⟨_, ?_, holdsAtPoints_flatten hvalue hbuf⟩
      rw [hall.run_eq buf hbuf, Except.map, Fill.putFirst, hall.length_eq _ rfl]
  · intro buf
    refine ⟨fun s v => rfl, fun s a ha => ?_, fun a ha => ?_, fun s f hf => ?_, fun f hf => ?_⟩
    · have hpass : ¬(a.location ≠ .dualFaceByCell ∧ a.stride ≠ 3) := by tauto
      rw [vectorArrayAtPoints, if_neg hpass]
      rfl
    · rw [not_or] at ha
      rw [vectorArrayAtPoints, if_pos ha]
      rfl
    · rw [vectorFieldAtPoints, if_neg (not_not.2 hf)]
      rfl
    · rw [vectorFieldAtPoints, if_pos hf]
      rfl

end CellCache

/-- In the unit tetrahedron two points are given the two components of a field, and the values of a
function; values on faces are refused, and so are vectors of two components. -/
theorem values_at_points_unitMesh :
    let points : List (Vec3 ℝ) := [0, ⟨1, 0, 0⟩]
    let stored : Quantity ℝ := ⟨.cell, .field ⟨2, .cell, [5, 6]⟩⟩
    let f : SpaceTimeFunction ℝ := ⟨1, fun t x => #v[x.x + t]⟩
    ∃ cm : CellCache ℝ, CellCache.build Tetrahedron.unitMesh.toMeshTables 0 .all = .ok cm ∧
      cm.value stored 3 [0, 0] = .ok () [5, 6] ∧
      (∃ out, cm.valueAtPoints stored points 3 [1, 2, 3, 4, 7] = .ok () out ∧
        HoldsAtPoints 2 points (fun _ => [5, 6]) [1, 2, 3, 4, 7] out ∧ out[3]? = some 6 ∧
        out[4]? = some 7) ∧
      (∃ out, cm.valueAtPoints ⟨.cell, .function f⟩ points 3 [8, 8] = .ok () out ∧
        out[1]? = some (1 + 3)) ∧
      cm.valueAtPoints ⟨.face, .array ⟨[1, 2, 3, 4], 1, .face, none⟩⟩ points 3 [8, 8] =
        .error (.refused (.unsupportedSupport .arrayInCell .face)) [8, 8] ∧
      cm.vectorFieldAtPoints ⟨2, .cell, [5, 6]⟩ 2 [8, 8] =
        .error (.refused (.invalidDimension .vectorFieldAtPoints 2)) [8, 8] := by
  intro points stored f
  have hcons := PolyhedralMesh.consistent_of_build Tetrahedron.build_unitMesh
    Tetrahedron.regularCell_unitMesh.lt
  set cm := CellCache.ofTables Tetrahedron.unitMesh.toMeshTables 0 .all with hcm
  obtain ⟨hpoints, hvectors⟩ := cm.values_at_points 3 (List.cons_ne_nil 0 [⟨1, 0, 0⟩])
  have hfirst : cm.value stored 3 [0, 0] = .ok () [5, 6] := rfl
  refine ⟨cm, CellCache.build_eq_ofTables hcons CapabilitySet.closed_all, hfirst, ?_, ?_, ?_,
    (hvectors [8, 8]).2.2.2.2 _ (by decide)⟩
  · obtain ⟨out, hrun, hholds⟩ :=
      (hpoints stored [0, 0] [1, 2, 3, 4, 7] (by decide) (by decide) (by decide)).2 _ hfirst
    exact ⟨out, hrun, hholds, hholds.entry 1 _ rfl 1 (by decide), hholds.frame 4 (by decide)⟩
  · have hvalue : cm.value ⟨.cell, .function f⟩ 3 [0] = .ok () [cm.center.x + 3] := rfl
    obtain ⟨out, hrun, hholds⟩ :=
      (hpoints ⟨.cell, .function f⟩ [0] [8, 8] (by decide) (by decide) (by decide)).2 _ hvalue
    exact ⟨out, hrun, hholds.entry 1 _ rfl 0 (by decide)⟩
  · obtain ⟨out, hrun, hout⟩ := (hpoints ⟨.face, .array ⟨[1, 2, 3, 4], 1, .face, none⟩⟩ [0] [8, 8]
      (by decide) (by decide) (by decide)).1 _ _ rfl
    rw [hrun, hout _ rfl]

end Polyfield
