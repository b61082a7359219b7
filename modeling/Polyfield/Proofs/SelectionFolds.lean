import Polyfield.Proofs.BulkAddressing

/-!
# Loops over a selection as folds

A loop over a selection rewrites slots of a buffer one after the other, each from what the slot
held.  A step reads and writes its own slot only, so that what becomes of a slot depends on the
entities that are put there, in their order, and on nothing else: steps at different slots may be
exchanged, steps at the same slot may not.

* `rewriteSlots` : the loop, as a fold over pairs of an entity and a slot;
* `slotAt_rewriteSlots`, `exists_rewriteSlots` : what becomes of each slot, and when the loop has a
  result;
* `rewriteSlots_congr` : loops that put the same entities into each slot have the same result;
* `Selection.forEach_foldLaw` : loops over a selection, sequential or in any order of the slots, are
  the fold over its positions.
-/

namespace Polyfield

variable {α : Type} {dim : Nat} {f : Nat → List α → Except Breach (List α)} {buf out : List α}

/-! ## Slots of a buffer -/

/-- The entries of a slot, as far as the buffer goes. -/
def slotAt (dim k : Nat) (buf : List α) : List α := (buf.drop (dim * k)).take dim

theorem getElem?_slotAt {k j : Nat} (hj : j < dim) :
    (slotAt dim k buf)[j]? = buf[dim * k + j]? := by
  rw [slotAt, List.getElem?_take_of_lt hj, List.getElem?_drop]

theorem slotAt_congr {k : Nat} {xs ys : List α}
    (h : ∀ j, dim * k ≤ j → j < dim * (k + 1) → xs[j]? = ys[j]?) :
    slotAt dim k xs = slotAt dim k ys := by
  refine List.ext_getElem? fun j => ?_
  by_cases hj : j < dim
  · rw [getElem?_slotAt hj, getElem?_slotAt hj]
    exact h _ (Nat.le_add_right _ _) (by rw [Nat.mul_succ]; omega)
  · have hnone : ∀ zs : List α, (slotAt dim k zs)[j]? = none := by
      intro zs
      refine List.getElem?_eq_none ?_
      rw [slotAt, List.length_take]
      omega
    rw [hnone, hnone]

/-- A routine that rewrites a slot by a list of the same length. -/
def KeepsLength (f : Nat → List α → Except Breach (List α)) : Prop :=
  ∀ e s t, f e s = .ok t → t.length = s.length

/-- What one step does: its slot is rewritten, every other entry stays. -/
structure Rewrites (dim k : Nat) (g : List α → Except Breach (List α)) (buf out : List α) :
    Prop where
  fits : dim * (k + 1) ≤ buf.length
  length_eq : out.length = buf.length
  slot : g (slotAt dim k buf) = .ok (slotAt dim k out)
  frame : ∀ j, ¬(dim * k ≤ j ∧ j < dim * (k + 1)) → out[j]? = buf[j]?

theorem Rewrites.of_updateSlot (hf : KeepsLength f) {e k : Nat}
    (h : updateSlot (dim * k) dim (f e) buf = .ok out) : Rewrites dim k (f e) buf out := by
  obtain ⟨hlen, slot, hslot, rfl⟩ := updateSlot_eq_ok.1 h
  have hdim : slot.length = dim := by
    rw [hf e _ _ hslot, List.length_take, List.length_drop]
    omega
  have hfilled : Filled dim (fun _ => .ok slot) (fun l => k ≤ l ∧ l < k + [slot].length) buf
      (buf.take (dim * k) ++ [slot].flatten ++ buf.drop (dim * k + dim * [slot].length)) :=
    Filled.flatten (by simpa using hdim) (by simpa using hlen) (by simp)
  simp only [List.flatten_cons, List.flatten_nil, List.append_nil, List.length_cons,
    List.length_nil, Nat.zero_add, Nat.mul_one] at hfilled
  obtain ⟨v, hv, hread⟩ := hfilled.slot k (by omega)
  cases hv
  refine ⟨by rwa [Nat.mul_succ], hfilled.length_eq, ?_, fun j hj => ?_⟩
  · obtain ⟨-, -, hread⟩ := slice_eq_ok.1 hread
    rw [Nat.mul_succ, Nat.add_sub_cancel_left] at hread
    rw [slotAt, hslot, slotAt, ← hread]
  · refine hfilled.frame j fun l hl => ?_
    obtain rfl : l = k := by omega
    exact hj

/-- A step leaves the other slots as they were. -/
theorem Rewrites.slotAt_of_ne {g : List α → Except Breach (List α)} {k l : Nat}
    (h : Rewrites dim k g buf out) (hl : l ≠ k) : slotAt dim l out = slotAt dim l buf := by
  refine slotAt_congr fun j hj hj' => h.frame j fun hk => ?_
  exact hl (slot_unique ⟨hj, hj'⟩ hk)

theorem exists_rewrites (hf : KeepsLength f) {e k : Nat} (hfits : dim * (k + 1) ≤ buf.length)
    {slot : List α} (hslot : f e (slotAt dim k buf) = .ok slot) :
    ∃ out, updateSlot (dim * k) dim (f e) buf = .ok out ∧ Rewrites dim k (f e) buf out := by
  have hout : updateSlot (dim * k) dim (f e) buf =
      .ok (buf.take (dim * k) ++ slot ++ buf.drop (dim * k + dim)) :=
    updateSlot_eq_ok.2 ⟨by rwa [Nat.mul_succ] at hfits, slot, hslot, rfl⟩
  exact ⟨_, hout, .of_updateSlot hf hout⟩

/-! ## Loops over slots -/

/-- Rewrite slots one after the other: each step has an entity and the number of a slot. -/
def rewriteSlots (dim : Nat) (f : Nat → List α → Except Breach (List α))
    (steps : List (Nat × Nat)) (buf : List α) : Except Breach (List α) :=
  steps.foldlM (fun out step => updateSlot (dim * step.2) dim (f step.1) out) buf

/-- The entities that are put into a slot, in order. -/
def entitiesAt (k : Nat) (steps : List (Nat × Nat)) : List Nat :=
  (steps.filter (·.2 = k)).map Prod.fst

/-- Rewrite one slot for several entities. -/
def rewriteAll (f : Nat → List α → Except Breach (List α)) (es : List Nat) (slot : List α) :
    Except Breach (List α) :=
  es.foldlM (fun s e => f e s) slot

section Loops

variable {steps : List (Nat × Nat)}

theorem entitiesAt_cons_self (e k : Nat) (steps : List (Nat × Nat)) :
    entitiesAt k ((e, k) :: steps) = e :: entitiesAt k steps := by
  simp [entitiesAt]

theorem entitiesAt_cons_of_ne {e k l : Nat} (h : l ≠ k) (steps : List (Nat × Nat)) :
    entitiesAt l ((e, k) :: steps) = entitiesAt l steps := by
  simp [entitiesAt, h.symm]

theorem mem_entitiesAt {e k : Nat} : e ∈ entitiesAt k steps ↔ (e, k) ∈ steps := by
  simp [entitiesAt]

/-- **What a loop makes of a slot** is what its entities make of it, one after the other. -/
theorem slotAt_rewriteSlots (hf : KeepsLength f) (h : rewriteSlots dim f steps buf = .ok out)
    (k : Nat) :
    rewriteAll f (entitiesAt k steps) (slotAt dim k buf) = .ok (slotAt dim k out) := by
  induction steps generalizing buf with
  | nil =>
    cases h
    rfl
  | cons step steps ih =>
    obtain ⟨e, l⟩ := step
    obtain ⟨mid, hmid, hrest⟩ := bind_eq_ok.1 h
    have hstep := Rewrites.of_updateSlot hf hmid
    by_cases hk : k = l
    · subst hk
      rw [entitiesAt_cons_self, rewriteAll, List.foldlM_cons, hstep.slot, ok_bind]
      exact ih hrest
    · rw [entitiesAt_cons_of_ne hk, ← hstep.slotAt_of_ne hk]
      exact ih hrest

theorem length_rewriteSlots (hf : KeepsLength f) (h : rewriteSlots dim f steps buf = .ok out) :
    out.length = buf.length :=
  of_foldlM_eq_ok (P := fun mid : List α => mid.length = buf.length)
    (fun _ _ _ _ hmid hstep => (Rewrites.of_updateSlot hf hstep).length_eq.trans hmid) rfl h

theorem frame_rewriteSlots (hf : KeepsLength f) (h : rewriteSlots dim f steps buf = .ok out)
    {j : Nat} (hj : ∀ step ∈ steps, ¬(dim * step.2 ≤ j ∧ j < dim * (step.2 + 1))) :
    out[j]? = buf[j]? :=
  of_foldlM_eq_ok (P := fun mid : List α => mid[j]? = buf[j]?)
    (fun _ step hmem _ hmid hstep =>
      ((Rewrites.of_updateSlot hf hstep).frame j (hj step hmem)).trans hmid) rfl h

theorem fits_of_rewriteSlots (hf : KeepsLength f) (h : rewriteSlots dim f steps buf = .ok out) :
    ∀ step ∈ steps, dim * (step.2 + 1) ≤ buf.length := by
  induction steps generalizing buf with
  | nil => simp
  | cons step steps ih =>
    obtain ⟨mid, hmid, hrest⟩ := bind_eq_ok.1 h
    have hstep := Rewrites.of_updateSlot hf hmid
    refine List.forall_mem_cons.2 ⟨hstep.fits, fun s hs => ?_⟩
    rw [← hstep.length_eq]
    exact ih hrest s hs

/-- **A loop has a result** if its slots are inside the buffer and each of them can be
rewritten. -/
theorem exists_rewriteSlots (hf : KeepsLength f)
    (hfits : ∀ step ∈ steps, dim * (step.2 + 1) ≤ buf.length)
    (hslots : ∀ k, ∃ s, rewriteAll f (entitiesAt k steps) (slotAt dim k buf) = .ok s) :
    ∃ out, rewriteSlots dim f steps buf = .ok out := by
  induction steps generalizing buf with
  | nil => exact ⟨buf, rfl⟩
  | cons step steps ih =>
    obtain ⟨e, l⟩ := step
    obtain ⟨hl, hrest⟩ := List.forall_mem_cons.1 hfits
    obtain ⟨s, hs⟩ := hslots l
    rw [entitiesAt_cons_self] at hs
    obtain ⟨slot, hslot, -⟩ := bind_eq_ok.1 hs
    obtain ⟨mid, hmid, hstep⟩ := exists_rewrites hf hl hslot
    have hnext : ∃ out, rewriteSlots dim f steps mid = .ok out := by
      refine ih (fun s hs => ?_) fun k => ?_
      · rw [hstep.length_eq]
        exact hrest s hs
      · obtain ⟨s, hs⟩ := hslots k
        by_cases hk : k = l
        · subst hk
          rw [entitiesAt_cons_self, rewriteAll, List.foldlM_cons, hstep.slot, ok_bind] at hs
          exact ⟨s, hs⟩
        · rw [entitiesAt_cons_of_ne hk, ← hstep.slotAt_of_ne hk] at hs
          exact ⟨s, hs⟩
    obtain ⟨out, hout⟩ := hnext
    exact ⟨out, bind_eq_ok.2 ⟨mid, hmid, hout⟩⟩

/-- **Only the order within each slot matters**: loops that put the same entities into each slot
have the same result. -/
theorem rewriteSlots_congr (hf : KeepsLength f) {steps' : List (Nat × Nat)}
    (hsteps : ∀ k, entitiesAt k steps = entitiesAt k steps') :
    rewriteSlots dim f steps buf = .ok out ↔ rewriteSlots dim f steps' buf = .ok out := by
  have hone : ∀ {ss ss' : List (Nat × Nat)} {out : List α},
      (∀ k, entitiesAt k ss = entitiesAt k ss') → rewriteSlots dim f ss buf = .ok out →
        rewriteSlots dim f ss' buf = .ok out := by
    intro ss ss' out hss h
    have hmem : ∀ step, step ∈ ss' → step ∈ ss := by
      intro step hstep
      rw [← mem_entitiesAt (e := step.1) (k := step.2), hss]
      exact mem_entitiesAt.2 hstep
    obtain ⟨out', hout'⟩ := exists_rewriteSlots hf
      (fun step hstep => fits_of_rewriteSlots hf h step (hmem step hstep))
      fun k => ⟨_, hss k ▸ slotAt_rewriteSlots hf h k⟩
    suffices hout : out = out' by rw [hout, hout']
    -- an entry lies in the slot of a step, or in none
    refine List.ext_getElem? fun j => ?_
    by_cases hj : ∃ step ∈ ss, dim * step.2 ≤ j ∧ j < dim * (step.2 + 1)
    · obtain ⟨step, -, hle, hlt⟩ := hj
      generalize step.2 = k at hle hlt
      have hslot : slotAt dim k out = slotAt dim k out' := by
        have hk := slotAt_rewriteSlots hf h k
        rw [hss, slotAt_rewriteSlots hf hout' k] at hk
        exact (Except.ok.inj hk).symm
      have hin : j - dim * k < dim := by
        rw [Nat.mul_succ] at hlt
        omega
      have hread : ∀ xs : List α, xs[j]? = (slotAt dim k xs)[j - dim * k]? := by
        intro xs
        rw [getElem?_slotAt hin, Nat.add_sub_cancel' hle]
      rw [hread out, hread out', hslot]
    · have hnone : ∀ step ∈ ss, ¬(dim * step.2 ≤ j ∧ j < dim * (step.2 + 1)) := by
        intro step hstep hin
        exact hj ⟨step, hstep, hin⟩
      rw [frame_rewriteSlots hf h hnone,
        frame_rewriteSlots hf hout' fun step hstep => hnone step (hmem step hstep)]
  exact ⟨hone hsteps, hone fun k => (hsteps k).symm⟩

end Loops

/-! ## Consecutive slots -/

/-- Rewrite the slots of some entities, numbered by their positions, in the order given. -/
def denseSteps (es order : List Nat) : List (Nat × Nat) := order.map fun i => (es.getD i 0, i)

theorem map_getD_range (es : List Nat) : (List.range es.length).map (es.getD · 0) = es := by
  refine List.ext_getElem (by simp) fun i _ hi => ?_
  rw [List.getElem_map, List.getElem_range, List.getD_eq_getElem _ _ hi]

/-- In whatever order the slots are visited, each of them is rewritten for the entity at its
position. -/
theorem entitiesAt_denseSteps {es order : List Nat} (h : order.Perm (List.range es.length))
    (k : Nat) : entitiesAt k (denseSteps es order) = es[k]?.toList := by
  have hvisits : entitiesAt k (denseSteps es order) =
      (order.filter (· = k)).map (es.getD · 0) := by
    simp [entitiesAt, denseSteps, List.filter_map, Function.comp_def]
  have honce : order.filter (· = k) = if k < es.length then [k] else [] := by
    have hnodup : order.Nodup := h.nodup_iff.2 List.nodup_range
    rw [List.filter_eq, hnodup.count]
    by_cases hk : k < es.length <;> simp [h.mem_iff, hk]
  rw [hvisits, honce]
  by_cases hk : k < es.length <;> simp [hk]

theorem fillSlots_map (g : Nat → Nat) (es : List Nat) (buf : List α) :
    Selection.fillSlots dim f (es.map g) buf =
      Selection.fillSlots dim (fun i => f (g i)) es buf := by
  induction es generalizing buf with
  | nil => rfl
  | cons e es ih => simp only [List.map_cons, Selection.fillSlots, ih]

theorem fillSlots_eq_rewriteSlots (hf : KeepsLength f) {es : List Nat}
    (hbuf : dim * es.length ≤ buf.length) : Selection.fillSlots dim f es buf =
      rewriteSlots dim f (denseSteps es (List.range es.length)) buf := by
  conv_lhs => rw [← map_getD_range es]
  rw [fillSlots_map, rewriteSlots, denseSteps, List.foldlM_map]
  exact (Selection.foldlM_updateSlot_range (fun i s t h => hf _ s t h) es.length hbuf).symm

theorem forEachInOrder_eq_rewriteSlots {es order : List Nat} (h : ∀ i ∈ order, i < es.length)
    (buf : List α) :
    Selection.forEachInOrder dim f es order buf = rewriteSlots dim f (denseSteps es order) buf := by
  rw [rewriteSlots, denseSteps, List.foldlM_map]
  refine foldlM_congr (fun out i hi => ?_) buf
  rw [fetch_getD (h i hi) 0, ok_bind, Nat.mul_comm]

/-- Slots that were rewritten from the first on are inside the buffer. -/
theorem mul_le_of_rewriteSlots (hf : KeepsLength f) {es order : List Nat}
    (horder : order.Perm (List.range es.length))
    (h : rewriteSlots dim f (denseSteps es order) buf = .ok out) :
    dim * es.length ≤ buf.length := by
  refine Selection.Fits.mul_le fun k hk => ?_
  refine fits_of_rewriteSlots hf h (es.getD k 0, k) (List.mem_map_of_mem ?_)
  exact horder.mem_iff.2 (List.mem_range.2 hk)

/-! ## Selections -/

namespace Selection

variable {s : Selection}

/-- A selection that divides the front of the buffer into slots. -/
def IsDense : Selection → Prop
  | all _ | compact _ => True
  | scattered _ => False

/-- Rewrite the slot of one position of a selection. -/
def rewriteAt (dim : Nat) (f : Nat → List α → Except Breach (List α)) (s : Selection)
    (out : List α) (i : Nat) : Except Breach (List α) := do
  let e ← s.source i
  let k ← s.target i
  updateSlot (dim * k) dim (f e) out

/-- The entities that a selection puts into a slot, in order. -/
def entitiesOf (k : Nat) : Selection → List Nat
  | all n => if k < n then [k] else []
  | compact ids => ids[k]?.toList
  | scattered ids => ids.filter (· = k)

/-- The entities of a selection with their slots. -/
def steps : Selection → List (Nat × Nat)
  | all n => denseSteps (List.range n) (List.range n)
  | compact ids => denseSteps ids (List.range ids.length)
  | scattered ids => ids.map fun e => (e, e)

theorem entitiesAt_steps (k : Nat) (s : Selection) : entitiesAt k s.steps = s.entitiesOf k := by
  cases s with
  | all n =>
    have hperm : (List.range n).Perm (List.range (List.range n).length) := by simp
    rw [steps, entitiesAt_denseSteps hperm, entitiesOf]
    by_cases hk : k < n <;> simp [hk]
  | compact ids => exact entitiesAt_denseSteps (.refl _) k
  | scattered ids => simp [steps, entitiesOf, entitiesAt, List.filter_map, Function.comp_def]

/-- The fold over the positions of a selection. -/
theorem foldlM_rewriteAt (s : Selection) (buf : List α) :
    (List.range s.length).foldlM (s.rewriteAt dim f) buf = rewriteSlots dim f s.steps buf := by
  cases s with
  | all n =>
    rw [rewriteSlots, steps, denseSteps, List.foldlM_map]
    refine foldlM_congr (fun out i hi => ?_) buf
    have hi : i < n := List.mem_range.1 hi
    simp [rewriteAt, source, target, hi]
  | compact ids =>
    rw [rewriteSlots, steps, denseSteps, List.foldlM_map]
    refine foldlM_congr (fun out i hi => ?_) buf
    rw [rewriteAt, source, fetch_getD (List.mem_range.1 hi) 0]
    rfl
  | scattered ids =>
    rw [rewriteSlots, steps, List.foldlM_map]
    conv_rhs => rw [← map_getD_range ids, List.foldlM_map]
    refine foldlM_congr (fun out i hi => ?_) buf
    rw [rewriteAt, source, target, fetch_getD (List.mem_range.1 hi) 0]
    rfl

theorem dense_eq_ok (hf : KeepsLength f) {es order : List Nat}
    (horder : order.Perm (List.range es.length)) :
    (do requireSlots dim es.length buf; rewriteSlots dim f (denseSteps es order) buf) = .ok out ↔
      dim ≠ 0 ∧ rewriteSlots dim f (denseSteps es (List.range es.length)) buf = .ok out := by
  have hany : ∀ k, entitiesAt k (denseSteps es order) =
      entitiesAt k (denseSteps es (List.range es.length)) := by
    intro k
    rw [entitiesAt_denseSteps horder, entitiesAt_denseSteps (.refl _)]
  rw [unit_bind_eq_ok, requireSlots_eq_ok, rewriteSlots_congr hf hany]
  constructor
  · rintro ⟨⟨-, hdim⟩, h⟩
    exact ⟨hdim, h⟩
  · rintro ⟨hdim, h⟩
    exact ⟨⟨mul_le_of_rewriteSlots hf (.refl _) h, hdim⟩, h⟩

theorem fill_eq_ok (hf : KeepsLength f) (dim : Nat) (es : List Nat) (buf out : List α) :
    (do requireSlots dim es.length buf; fillSlots dim f es buf) = .ok out ↔
      dim ≠ 0 ∧ rewriteSlots dim f (denseSteps es (List.range es.length)) buf = .ok out := by
  rw [← dense_eq_ok hf (.refl _), unit_bind_eq_ok, unit_bind_eq_ok]
  refine and_congr_right fun hreq => ?_
  rw [fillSlots_eq_rewriteSlots hf (requireSlots_eq_ok.1 hreq).1]

theorem inOrder_eq_ok (hf : KeepsLength f) (dim : Nat) {es order : List Nat}
    (horder : order.Perm (List.range es.length)) (buf out : List α) :
    (do requireSlots dim es.length buf; forEachInOrder dim f es order buf) = .ok out ↔
      dim ≠ 0 ∧ rewriteSlots dim f (denseSteps es (List.range es.length)) buf = .ok out := by
  rw [forEachInOrder_eq_rewriteSlots fun i hi => List.mem_range.1 (horder.mem_iff.1 hi)]
  exact dense_eq_ok hf horder

/-- **A sequential loop** rewrites the slots of its steps. -/
theorem forEach_eq_ok (hf : KeepsLength f) : s.forEach dim f buf = .ok out ↔
    (s.IsDense → dim ≠ 0) ∧ rewriteSlots dim f s.steps buf = .ok out := by
  cases s with
  | all n =>
    have h := fill_eq_ok hf dim (List.range n) buf out
    rw [List.length_range] at h
    simpa [forEach, IsDense, steps] using h
  | compact ids => simpa [forEach, IsDense, steps] using fill_eq_ok hf dim ids buf out
  | scattered ids => simp [forEach, IsDense, steps, rewriteSlots, List.foldlM_map, Nat.mul_comm]

/-- **Whatever the threshold and the order of the slots**, a loop has the same result. -/
theorem parForEach_eq_ok (hf : KeepsLength f) {order : Nat → List Nat}
    (horder : ∀ n, (order n).Perm (List.range n)) (threshold : Nat) :
    s.parForEach dim threshold f order buf = .ok out ↔ s.forEach dim f buf = .ok out := by
  unfold parForEach
  by_cases hs : s.length < threshold
  · rw [if_pos hs]
  · rw [if_neg hs]
    cases s with
    | all n =>
      have hperm : (order n).Perm (List.range (List.range n).length) := by simpa using horder n
      have hpar := inOrder_eq_ok hf dim hperm buf out
      have hseq := fill_eq_ok hf dim (List.range n) buf out
      rw [List.length_range] at hpar hseq
      exact hpar.trans hseq.symm
    | compact ids =>
      have hpar := inOrder_eq_ok hf dim (horder ids.length) buf out
      exact hpar.trans (fill_eq_ok hf dim ids buf out).symm
    | scattered ids => rfl

/-- What a loop over a selection does, in terms of a fold over its positions. -/
structure FoldLaw (dim : Nat) (f : Nat → List α → Except Breach (List α)) (s : Selection)
    (buf : List α) : Prop where
  /-- The loop rewrites the slots of the positions from the first to the last.  Slots without
  entries are a breach where they divide the buffer. -/
  forEach_iff : ∀ out, s.forEach dim f buf = .ok out ↔
    (s.IsDense → dim ≠ 0) ∧ (List.range s.length).foldlM (s.rewriteAt dim f) buf = .ok out
  /-- Every entry outside the slots of the selection is as it was. -/
  frame : ∀ out, s.forEach dim f buf = .ok out → out.length = buf.length ∧
    ∀ j, (∀ i < s.length, ∀ k, s.target i = .ok k → ¬(dim * k ≤ j ∧ j < dim * (k + 1))) →
      out[j]? = buf[j]?
  /-- A slot is rewritten for each entity that is put there, one after the other; for an entity
  that a scattered selection lists several times, as many times. -/
  slot : ∀ out, s.forEach dim f buf = .ok out → ∀ k,
    rewriteAll f (s.entitiesOf k) (slotAt dim k buf) = .ok (slotAt dim k out)
  /-- If slots can always be rewritten, the loop fails exactly if one of them is not inside the
  buffer, or the buffer is divided into slots without entries. -/
  fails_iff : (∀ e slot, slot.length = dim → ∃ new, f e slot = .ok new) →
    ((∃ b, s.forEach dim f buf = .error b) ↔ (s.IsDense ∧ dim = 0) ∨
      ∃ i < s.length, ∃ k, s.target i = .ok k ∧ buf.length < dim * (k + 1))
  /-- For every threshold and every order of the slots the loop has the same result, or none. -/
  parForEach_iff : ∀ (threshold : Nat) (order : Nat → List Nat),
    (∀ n, (order n).Perm (List.range n)) → ∀ out,
      s.parForEach dim threshold f order buf = .ok out ↔ s.forEach dim f buf = .ok out

/-- A loop fails if it has no result. -/
theorem forEach_eq_error_iff :
    (∃ b, s.forEach dim f buf = .error b) ↔ ¬∃ out, s.forEach dim f buf = .ok out := by
  cases s.forEach dim f buf <;> simp

/-- The slots of the steps are the targets of the positions. -/
theorem forall_mem_steps {P : Nat → Prop} : (∀ step ∈ s.steps, P step.2) ↔
    ∀ i < s.length, ∀ k, s.target i = .ok k → P k := by
  have htargets : s.steps.map Prod.snd = s.targets := by
    cases s <;> simp [steps, denseSteps, targets, Function.comp_def]
  have hsteps : (∀ step ∈ s.steps, P step.2) ↔ ∀ k ∈ s.targets, P k := by
    rw [← htargets, List.forall_mem_map]
  rw [hsteps]
  constructor
  · intro h i hi k hk
    exact h k (mem_targets_iff.2 ⟨i, hi, hk⟩)
  · intro h k hk
    obtain ⟨i, hi, hk⟩ := mem_targets_iff.1 hk
    exact h i hi k hk

/-- Slots of the right length can be rewritten as often as wanted. -/
theorem exists_rewriteAll (hf : KeepsLength f)
    (htotal : ∀ e slot, slot.length = dim → ∃ new, f e slot = .ok new) (es : List Nat)
    {slot : List α} (hslot : slot.length = dim) : ∃ new, rewriteAll f es slot = .ok new := by
  refine (exists_foldlM_eq_ok (P := fun mid : List α => mid.length = dim)
    (fun mid e _ hmid => ?_) hslot).imp fun new hnew => hnew.1
  obtain ⟨new, hnew⟩ := htotal e mid hmid
  exact ⟨new, hnew, (hf e mid new hnew).trans hmid⟩

/-- A loop whose slots can always be rewritten has a result if they are inside the buffer. -/
theorem exists_forEach_iff (hf : KeepsLength f)
    (htotal : ∀ e slot, slot.length = dim → ∃ new, f e slot = .ok new) :
    (∃ out, s.forEach dim f buf = .ok out) ↔ (s.IsDense → dim ≠ 0) ∧
      ∀ i < s.length, ∀ k, s.target i = .ok k → dim * (k + 1) ≤ buf.length := by
  rw [← forall_mem_steps (P := fun k => dim * (k + 1) ≤ buf.length)]
  constructor
  · rintro ⟨out, h⟩
    obtain ⟨hdim, h⟩ := (forEach_eq_ok hf).1 h
    exact ⟨hdim, fits_of_rewriteSlots hf h⟩
  · rintro ⟨hdim, hfits⟩
    have hslots : ∀ k, ∃ slot,
        rewriteAll f (entitiesAt k s.steps) (slotAt dim k buf) = .ok slot := by
      intro k
      cases hes : entitiesAt k s.steps with
      | nil => exact ⟨_, rfl⟩
      | cons e es =>
        have hmem : (e, k) ∈ s.steps := mem_entitiesAt.1 (hes ▸ List.mem_cons_self)
        have hroom : dim * (k + 1) ≤ buf.length := hfits _ hmem
        rw [Nat.mul_succ] at hroom
        refine exists_rewriteAll hf htotal _ ?_
        rw [slotAt, List.length_take, List.length_drop]
        omega
    obtain ⟨out, h⟩ := exists_rewriteSlots hf hfits hslots
    exact ⟨out, (forEach_eq_ok hf).2 ⟨hdim, h⟩⟩

/-- **Loops over selections are folds, in any order.**  A loop is the fold over the positions of its
selection; entries outside the slots stay, and a slot is rewritten for its entities one after the
other.  The slots of a dense selection may be visited in any order. -/
theorem forEach_foldLaw (dim : Nat) {f : Nat → List α → Except Breach (List α)}
    (hf : KeepsLength f) (s : Selection) (buf : List α) : s.FoldLaw dim f buf where
  forEach_iff out := by
    rw [forEach_eq_ok hf, foldlM_rewriteAt]
  frame out h := by
    obtain ⟨-, h⟩ := (forEach_eq_ok hf).1 h
    refine ⟨length_rewriteSlots hf h, fun j hj => frame_rewriteSlots hf h ?_⟩
    exact forall_mem_steps.2 hj
  slot out h k := by
    obtain ⟨-, h⟩ := (forEach_eq_ok hf).1 h
    rw [← entitiesAt_steps]
    exact slotAt_rewriteSlots hf h k
  fails_iff htotal := by
    rw [forEach_eq_error_iff, exists_forEach_iff hf htotal, not_and_or]
    refine or_congr (by simp) ?_
    simp only [not_forall, Nat.not_le, exists_prop]
  parForEach_iff threshold order horder out := parForEach_eq_ok hf horder threshold

/-- A slot that is listed twice is doubled twice, whatever the threshold; dense slots are doubled in
any order. -/
theorem forEach_foldLaw_doubling :
    KeepsLength (fun e (slot : List Nat) => .ok (slot.map (2 * · + e))) ∧
    (scattered [2, 0, 2]).parForEach 2 0 (fun e slot => .ok (slot.map (2 * · + e)))
      (fun n => (List.range n).reverse) [1, 1, 1, 1, 1, 1, 1] = .ok [2, 2, 1, 1, 10, 10, 1] ∧
    (compact [2, 0, 2]).parForEach 2 0 (fun e slot => .ok (slot.map (2 * · + e)))
      (fun n => (List.range n).reverse) [1, 1, 1, 1, 1, 1, 1] = .ok [4, 4, 2, 2, 4, 4, 1] := by
  have hf : KeepsLength (fun e (slot : List Nat) => .ok (slot.map (2 * · + e))) := by
    intro e s t h
    rw [← Except.ok.inj h, List.length_map]
  have horder : ∀ n, ((List.range n).reverse).Perm (List.range n) := fun n => List.reverse_perm _
  refine ⟨hf, ?_, ?_⟩
  · have hlaw := forEach_foldLaw 2 hf (scattered [2, 0, 2]) [1, 1, 1, 1, 1, 1, 1]
    exact (hlaw.parForEach_iff 0 _ horder _).2 ((hlaw.forEach_iff _).2 ⟨nofun, rfl⟩)
  · have hlaw := forEach_foldLaw 2 hf (compact [2, 0, 2]) [1, 1, 1, 1, 1, 1, 1]
    exact (hlaw.parForEach_iff 0 _ horder _).2
      ((hlaw.forEach_iff _).2 ⟨fun _ => by decide, rfl⟩)

end Selection

end Polyfield
