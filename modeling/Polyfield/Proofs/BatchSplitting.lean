import Polyfield.Proofs.SelectionFolds

/-!
# Batches against a single call

From a threshold on, a function is evaluated at a dense selection batch by batch.  The batches, in
any order, leave what one call for the whole selection leaves, and they fail exactly when it does.

* `SpaceTimeFunction.requireSlots_of_evaluate`, `BulkEvaluator.requireSlots_of_functionAt` : both
  check the length of the buffer first;
* `Selection.exists_of_filled` : and both need the points of all entities, so that one of them
  succeeds if the other does;
* `BulkEvaluator.functionAt_eq_ok` : then they fill the same slots with the same values;
* `BulkEvaluator.batches_match` : the same for the points of the cells, vertices and boundary faces
  of a mesh.
-/

namespace Polyfield

open Selection

/-! ## What a dense selection needs -/

namespace Selection

variable {α : Type} {dim : Nat} {val : Nat → Except Breach (List α)} {s : Selection}
  {buf out : List α}

/-- A buffer that passes the check has room for the slots of a dense selection. -/
theorem fits_of_requireSlots (hs : s.IsDense) (h : requireSlots dim s.length buf = .ok ()) :
    s.Fits dim buf := by
  intro k hk
  have hlt : k < s.length := by
    cases s with
    | all n => exact mem_targets_all.1 hk
    | compact ids => exact mem_targets_compact.1 hk
    | scattered ids => exact hs.elim
  exact (Nat.mul_le_mul_left dim hlt).trans (requireSlots_eq_ok.1 h).1

/-- Entities whose slots have been filled have values. -/
theorem exists_of_filled (h : Filled dim (s.slotValue val) (· ∈ s.targets) buf out) {e : Nat}
    (he : e ∈ s.entities) : ∃ v, val e = .ok v := by
  obtain ⟨i, hi, rfl⟩ := List.mem_iff_getElem.1 he
  rw [length_entities] at hi
  obtain ⟨e, k, hsource, -, hmem, hvalue⟩ := exists_source val hi
  obtain ⟨v, hv, -⟩ := h.slot k hmem
  have hentity : s.entities[i] = e := by
    cases s with
    | all n => simpa [source, entities] using hsource
    | scattered ids => exact Except.ok.inj ((fetch_of_lt hi).symm.trans hsource)
    | compact ids => exact Except.ok.inj ((fetch_of_lt hi).symm.trans hsource)
  exact ⟨v, by rw [hentity, ← hvalue, hv]⟩

end Selection

variable {R : Type} {ev : BulkEvaluator R} {points : List (Vec3 R)} {f : SpaceTimeFunction R}
  {sel : Selection} {t : R} {buf out : Buffer R}

theorem SpaceTimeFunction.requireSlots_of_evaluate (hsel : sel.IsDense)
    (h : f.evaluate t points sel buf = .ok out) : requireSlots f.dim sel.length buf = .ok () := by
  cases sel with
  | all n => exact (unit_bind_eq_ok.1 h).1
  | compact ids => exact (unit_bind_eq_ok.1 h).1
  | scattered ids => exact hsel.elim

namespace BulkEvaluator

theorem requireSlots_of_functionAt (hsel : sel.IsDense)
    (hlen : ¬sel.length < ev.settings.parallelThreshold)
    (h : ev.functionAt points f sel t buf = .ok out) :
    requireSlots f.dim sel.length buf = .ok () := by
  rw [functionAt, if_neg hlen] at h
  cases sel with
  | all n => exact (unit_bind_eq_ok.1 h).1
  | compact ids => exact (unit_bind_eq_ok.1 h).1
  | scattered ids => exact hsel.elim

/-! ## One call and many -/

/-- **Batches in any order leave what a single call leaves.** -/
theorem functionAt_eq_ok (hs : ev.schedule.Valid) :
    ev.functionAt points f sel t buf = .ok out ↔ f.evaluate t points sel buf = .ok out := by
  have hwrites := f.writes_componentsAt t points
  by_cases hlen : sel.length < ev.settings.parallelThreshold
  · rw [functionAt, if_pos hlen]
  by_cases hsel : sel.IsDense
  · constructor
    · intro h
      have hfilled := filled_functionAt hs h
      have hreq := requireSlots_of_functionAt hsel hlen h
      obtain ⟨out', hout'⟩ := hwrites.exists_forEach (requireSlots_eq_ok.1 hreq).2
        (fits_of_requireSlots hsel hreq) fun e he => exists_of_filled hfilled he
      obtain rfl := (hwrites.filled_forEach hout').unique hfilled
      exact hout'
    · intro h
      have hfilled := hwrites.filled_forEach h
      have hreq := SpaceTimeFunction.requireSlots_of_evaluate hsel h
      obtain ⟨out', hout'⟩ := exists_functionAt hs (requireSlots_eq_ok.1 hreq).2
        (fits_of_requireSlots hsel hreq) fun e he => exists_of_filled hfilled he
      obtain rfl := (filled_functionAt hs hout').unique hfilled
      exact hout'
  · cases sel with
    | all n => exact absurd trivial hsel
    | compact ids => exact absurd trivial hsel
    | scattered ids => rw [functionAt, if_neg hlen]

/-- The outcome of a single call for the whole selection: its buffer, with the value of each entity
in the slot of the entity, or a failure. -/
structure MatchesSingleCall (f : SpaceTimeFunction R) (t : R) (points : List (Vec3 R))
    (sel : Selection) (buf : Buffer R) (outcome : Except Breach (Buffer R)) : Prop where
  eq_ok_iff : ∀ out, outcome = .ok out ↔ f.evaluate t points sel buf = .ok out
  fails_iff : (∃ b, outcome = .error b) ↔ ∃ b, f.evaluate t points sel buf = .error b
  slot : ∀ out, outcome = .ok out → ∀ i < sel.length, ∃ e k x, sel.source i = .ok e ∧
    sel.target i = .ok k ∧ points[e]? = some x ∧
    slice out (f.dim * k) (f.dim * (k + 1)) = .ok (f.components t x)

theorem matchesSingleCall_functionAt (hs : ev.schedule.Valid) (points : List (Vec3 R))
    (f : SpaceTimeFunction R) (sel : Selection) (t : R) (buf : Buffer R) :
    MatchesSingleCall f t points sel buf (ev.functionAt points f sel t buf) where
  eq_ok_iff out := functionAt_eq_ok hs
  fails_iff := exists_error_iff fun out => functionAt_eq_ok hs
  slot out h i hi := by
    obtain ⟨e, k, v, he, hk, hv, hslot⟩ := (holds_of_filled (filled_functionAt hs h)).slot i hi
    obtain ⟨x, hx, hcomponents⟩ := bind_eq_ok.1 hv
    obtain rfl := Except.ok.inj hcomponents
    exact ⟨e, k, x, he, hk, fetch_eq_ok.1 hx, hslot⟩

/-- **Batches are not seen.**  For every number of components, selection, threshold and order of
the batches, the evaluation of a function at a list of points, and so at the cells, vertices and
boundary faces of a mesh, has the outcome of a single call. -/
theorem batches_match (ev : BulkEvaluator R) (hs : ev.schedule.Valid) (f : SpaceTimeFunction R)
    (sel : Selection) (t : R) (buf : Buffer R) :
    (∀ points, MatchesSingleCall f t points sel buf (ev.functionAt points f sel t buf)) ∧
      MatchesSingleCall f t ev.mesh.cellCenters sel buf (ev.functionAtCells f sel t buf) ∧
      MatchesSingleCall f t ev.mesh.vertexPoints sel buf (ev.functionAtVertices f sel t buf) ∧
      MatchesSingleCall f t ev.mesh.boundaryFaceCenters sel buf
        (ev.functionAtBoundaryFaces f sel t buf) := by
  have hmatch := fun points => matchesSingleCall_functionAt hs points f sel t buf
  exact ⟨hmatch, hmatch _, hmatch _, hmatch _⟩

/-- Two components at five points in batches of two, the short one first, in front of an entry that
stays; and a buffer that is too short for the last batch. -/
theorem batches_match_reversed :
    ∃ (ev : BulkEvaluator ℝ) (points : List (Vec3 ℝ)) (f : SpaceTimeFunction ℝ),
      ev.settings.parallelThreshold = 2 ∧ ev.schedule.order 3 = [2, 1, 0] ∧
      points = [0, ⟨1, 6, 0⟩, ⟨2, 7, 0⟩, ⟨3, 8, 0⟩, ⟨4, 9, 0⟩] ∧
      f = ⟨2, fun t x => #v[x.x, x.y + t]⟩ ∧
      ev.functionAt points f (.all 5) 1 (List.replicate 11 2) =
        .ok [0, 0 + 1, 1, 6 + 1, 2, 7 + 1, 3, 8 + 1, 4, 9 + 1, 2] ∧
      ev.functionAt points f (.compact [4, 0, 4]) 1 (List.replicate 7 2) =
        .ok [4, 9 + 1, 0, 0 + 1, 4, 9 + 1, 2] ∧
      ∃ b, ev.functionAt points f (.compact [4, 0, 4]) 1 (List.replicate 5 2) = .error b := by
  have hs : Schedule.Valid ⟨fun n => (List.range n).reverse, Schedule.sequential.reduction⟩ :=
    ⟨fun n => List.reverse_perm _, fun _ => rfl⟩
  have hmatch := fun f sel buf => (batches_match (R := ℝ) ⟨Tetrahedron.unitMesh.toMeshTables,
    ⟨.bary, 2⟩, _⟩ hs f sel 1 buf).1 [0, ⟨1, 6, 0⟩, ⟨2, 7, 0⟩, ⟨3, 8, 0⟩, ⟨4, 9, 0⟩]
  exact ⟨_, _, _, rfl, rfl, rfl, rfl, ((hmatch _ _ _).eq_ok_iff _).2 rfl,
    ((hmatch _ _ _).eq_ok_iff _).2 rfl, (hmatch _ _ _).fails_iff.2 ⟨_, rfl⟩⟩

end BulkEvaluator

end Polyfield
