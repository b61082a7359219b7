import Polyfield.Proofs.EntityValues

/-!
# Functions in batches

A large selection of points is divided into batches, and each batch fills its slots at once, in
any order of the batches.  The batches of a list are consecutive (`getElem?_chunk`), cover it
(`exists_chunk`) and end with it (`add_length_chunk_le`), so that together they fill the slots of
the list.

* `WritesBatch.filled`, `WritesBatch.exists_eq_ok` : what batches in any order fill, and that they
  succeed;
* `BulkEvaluator.filled_functionAt`, `BulkEvaluator.exists_functionAt` : the same for functions at
  selected points, on all paths.
-/

namespace Polyfield

open Selection

variable {α β R : Type}

/-! ## Batches -/

/-- A batch of a list by its number. -/
theorem eq_of_chunk {size i : Nat} {xs part : List α} (h : (chunks size xs)[i]? = some part) :
    i < (xs.length + size - 1) / size ∧ part = (xs.drop (size * i)).take size := by
  have hi := (List.getElem?_eq_some_iff.1 h).1
  rw [chunks, length_blocks] at hi
  rw [chunks, getElem?_blocks hi] at h
  exact ⟨hi, (Option.some.inj h).symm⟩

/-- The batches of a list number its elements consecutively. -/
theorem getElem?_chunk {size i : Nat} {xs part : List α} (h : (chunks size xs)[i]? = some part)
    {j : Nat} (hj : j < part.length) : part[j]? = xs[size * i + j]? := by
  obtain ⟨-, rfl⟩ := eq_of_chunk h
  rw [List.length_take, Nat.lt_min] at hj
  rw [List.getElem?_take_of_lt hj.1, List.getElem?_drop]

theorem mem_of_mem_chunk {size i : Nat} {xs part : List α}
    (h : (chunks size xs)[i]? = some part) {x : α} (hx : x ∈ part) : x ∈ xs := by
  obtain ⟨j, hj⟩ := List.mem_iff_getElem?.1 hx
  rw [getElem?_chunk h (List.getElem?_eq_some_iff.1 hj).1] at hj
  exact List.mem_iff_getElem?.2 ⟨_, hj⟩

/-- Every element of a list is in one of its batches. -/
theorem exists_chunk {size : Nat} (hsize : 0 < size) {xs : List α} {k : Nat}
    (hk : k < xs.length) : ∃ part, (chunks size xs)[k / size]? = some part ∧
      size * (k / size) ≤ k ∧ k < size * (k / size) + part.length := by
  have hcount : k / size < (xs.length + size - 1) / size := by
    have hlast := Nat.lt_mul_div_succ (xs.length + size - 1) hsize
    rw [Nat.mul_succ] at hlast
    rw [Nat.div_lt_iff_lt_mul hsize, Nat.mul_comm]
    omega
  have hle : size * (k / size) ≤ k := Nat.mul_div_le k size
  have hlt : k < size * (k / size) + size := Nat.lt_mul_div_succ k hsize
  refine ⟨_, getElem?_blocks hcount, hle, ?_⟩
  rw [List.length_take, List.length_drop]
  omega

/-- No batch goes beyond the end of its list. -/
theorem add_length_chunk_le {size i : Nat} (hsize : 0 < size) {xs part : List α}
    (h : (chunks size xs)[i]? = some part) : size * i + part.length ≤ xs.length := by
  obtain ⟨hi, rfl⟩ := eq_of_chunk h
  have hlast := (Nat.le_div_iff_mul_le hsize).1 (Nat.succ_le_of_lt hi)
  rw [Nat.mul_comm, Nat.mul_succ] at hlast
  rw [List.length_take, List.length_drop]
  omega

/-- There are no more batches than needed. -/
theorem batchCount_le_iff {size total n : Nat} (hsize : 0 < size) :
    (total + size - 1) / size ≤ n ↔ total ≤ size * n := by
  rw [Nat.div_le_iff_le_mul_add_pred hsize]
  omega

/-- The entries of the slots of a list are cut into as many parts as the list has batches. -/
theorem partCount_eq {dim size : Nat} (hdim : dim ≠ 0) (hsize : 0 < size) (n : Nat) :
    (dim * n + dim * size - 1) / (dim * size) = (n + size - 1) / size := by
  have hdim := Nat.pos_of_ne_zero hdim
  refine eq_of_forall_ge_iff fun count => ?_
  rw [batchCount_le_iff (Nat.mul_pos hdim hsize), batchCount_le_iff hsize, Nat.mul_assoc,
    Nat.mul_le_mul_left_iff hdim]

/-- **Each part has the entries of the slots of its batch**, the last ones included. -/
theorem length_part {size i : Nat} {xs part : List α} (h : (chunks size xs)[i]? = some part)
    (dim : Nat) : min (dim * size) (dim * xs.length - dim * size * i) = dim * part.length := by
  obtain ⟨-, rfl⟩ := eq_of_chunk h
  rw [List.length_take, List.length_drop, Nat.mul_assoc, ← Nat.mul_sub, Nat.mul_min_mul_left]

/-- A routine that puts the values of a batch one after the other. -/
structure WritesBatch (dim : Nat) (evaluate : List β → Buffer R → Except Breach (Buffer R))
    (g : β → Except Breach (List R)) : Prop where
  eq_ok : ∀ part slot out, slot.length = dim * part.length →
    (evaluate part slot = .ok out ↔ ∃ vs, part.mapM g = .ok vs ∧ out = vs.flatten)
  length_eq : ∀ x v, g x = .ok v → v.length = dim

namespace WritesBatch

variable {dim size : Nat} {evaluate : List β → Buffer R → Except Breach (Buffer R)}
  {g : β → Except Breach (List R)} {order : Nat → List Nat} {xs : List β} {buf out : Buffer R}

/-- Every batch has a part to go to. -/
theorem evaluateBatches_eq (order : Nat → List Nat) (hdim : dim ≠ 0) (hsize : 0 < size)
    (evaluate : List β → Buffer R → Except Breach (Buffer R)) (xs : List β) (buf : Buffer R) :
    BulkEvaluator.evaluateBatches order dim size evaluate xs buf =
      (order (chunks size xs).length).foldlM (fun out i => do
        let part ← fetch (chunks size xs) i
        updateSlot (dim * size * i) (dim * part.length) (evaluate part) out) buf := by
  have hcount : (dim * xs.length + dim * size - 1) / (dim * size) = (chunks size xs).length := by
    rw [partCount_eq hdim hsize, chunks, length_blocks]
  rw [BulkEvaluator.evaluateBatches, hcount, Nat.min_self]
  refine foldlM_congr (fun mid i _ => bind_congr_of_ok fun part hpart => ?_) buf
  exact congrArg (updateSlot (dim * size * i) · (evaluate part) mid)
    (length_part (fetch_eq_ok.1 hpart) dim)

theorem length_of_mapM (h : WritesBatch dim evaluate g) {part : List β} {vs : List (List R)}
    (hvs : part.mapM g = .ok vs) : ∀ v ∈ vs, v.length = dim := by
  intro v hv
  obtain ⟨x, -, hx⟩ := exists_of_mem_mapM hvs hv
  exact h.length_eq x v hx

/-- **Batches in any order** fill the slots of all items. -/
theorem filled (h : WritesBatch dim evaluate g) (hdim : dim ≠ 0) (hsize : 0 < size)
    (horder : ∀ n, (order n).Perm (List.range n))
    (hrun : BulkEvaluator.evaluateBatches order dim size evaluate xs buf = .ok out) :
    Filled dim (fun k => do g (← fetch xs k)) (fun k => k < xs.length) buf out := by
  rw [evaluateBatches_eq order hdim hsize] at hrun
  refine (Filled.foldlM (S := fun i k => ∃ part, (chunks size xs)[i]? = some part ∧
    size * i ≤ k ∧ k < size * i + part.length) (fun i _ mid next hstep => ?_) hrun).congr
      (fun k => ?_) fun _ _ => rfl
  · obtain ⟨part, hpart, hslot⟩ := bind_eq_ok.1 hstep
    rw [fetch_eq_ok] at hpart
    rw [Nat.mul_assoc] at hslot
    refine (Filled.updateSlot (fun slot new hlen hnew => ?_) hslot).congr (fun k => ?_)
      fun _ _ => rfl
    · obtain ⟨vs, hvs, rfl⟩ := (h.eq_ok part slot new hlen).1 hnew
      have hcount := length_of_mapM_eq_ok hvs
      refine ⟨vs, rfl, hcount, h.length_of_mapM hvs, fun j hj => ?_⟩
      have hjp : j < part.length := by omega
      have hitem : fetch xs (size * i + j) = .ok part[j] := by
        rw [fetch_eq_ok, ← getElem?_chunk hpart hjp, List.getElem?_eq_getElem hjp]
      rw [hitem, ok_bind, getElem_of_mapM_eq_ok hvs hjp hj]
    · constructor
      · rintro ⟨part', hpart', hk⟩
        cases hpart.symm.trans hpart'
        exact hk
      · exact fun hk => ⟨part, hpart, hk⟩
  · constructor
    · intro hk
      obtain ⟨part, hpart, hin⟩ := exists_chunk hsize hk
      have hi := (List.getElem?_eq_some_iff.1 hpart).1
      exact ⟨k / size, (horder _).mem_iff.2 (List.mem_range.2 hi), part, hpart, hin⟩
    · rintro ⟨i, -, part, hpart, -, hlt⟩
      exact Nat.lt_of_lt_of_le hlt (add_length_chunk_le hsize hpart)

/-- Batches of items that all have values are evaluated. -/
theorem exists_eq_ok (h : WritesBatch dim evaluate g) (hdim : dim ≠ 0) (hsize : 0 < size)
    (horder : ∀ n, (order n).Perm (List.range n)) (hroom : dim * xs.length ≤ buf.length)
    (hval : ∀ x ∈ xs, ∃ v, g x = .ok v) :
    ∃ out, BulkEvaluator.evaluateBatches order dim size evaluate xs buf = .ok out := by
  rw [evaluateBatches_eq order hdim hsize]
  refine (exists_foldlM_eq_ok (P := fun mid : Buffer R => mid.length = buf.length)
    (fun mid i hi hmid => ?_) rfl).imp fun out hout => hout.1
  have hlt := List.mem_range.1 ((horder _).mem_iff.1 hi)
  have hpart := List.getElem?_eq_getElem hlt
  obtain ⟨vs, hvs⟩ := exists_mapM_eq_ok fun x hx => hval x (mem_of_mem_chunk hpart hx)
  have hlen := length_flatten_of_forall (h.length_of_mapM hvs)
  rw [length_of_mapM_eq_ok hvs] at hlen
  have hslots : dim * size * i + dim * (chunks size xs)[i].length ≤ mid.length := by
    rw [hmid, Nat.mul_assoc, ← Nat.mul_add]
    exact Nat.le_trans (Nat.mul_le_mul_left dim (add_length_chunk_le hsize hpart)) hroom
  obtain ⟨out, hout, hkeep⟩ := exists_updateSlot_eq_ok hslots
    (fun slot hslot => (h.eq_ok _ slot _ hslot).2 ⟨vs, hvs, rfl⟩) hlen
  exact ⟨out, by rw [fetch_of_lt hlt, ok_bind, hout], hkeep.trans hmid⟩

end WritesBatch

/-! ## Functions at points -/

namespace SpaceTimeFunction

variable {f : SpaceTimeFunction R} {t : R} {points : List (Vec3 R)}

/-- A batch of points, evaluated at their positions in the batch. -/
theorem writesBatch_all (hdim : f.dim ≠ 0) :
    WritesBatch f.dim (fun part => f.evaluate t part (.all part.length))
      (fun x => .ok (f.components t x)) := by
  refine ⟨fun part slot out hslot => ?_, fun x v hv => ?_⟩
  · have hvalues : (List.range part.length).mapM (f.componentsAt t part) =
        part.mapM fun x => (.ok (f.components t x) : Except Breach (List R)) := by
      rw [mapM_range_eq_map fun k x hx => ?_, mapM_eq_map fun _ _ => rfl]
      rw [componentsAt, fetch_eq_ok.2 hx]
      rfl
    rw [evaluate, forEach_all_eq_ok (f.writes_componentsAt t part), hvalues, ← hslot,
      List.drop_length]
    simp [hdim]
  · rw [← Except.ok.inj hv, length_components]

/-- All points of a list, one slot after the other. -/
theorem evaluate_all_eq_ok (hdim : f.dim ≠ 0) (t : R) (points : List (Vec3 R)) {buf : Buffer R}
    (hbuf : buf.length = f.dim * points.length) :
    f.evaluate t points (.all points.length) buf =
      .ok (points.map (f.components t)).flatten :=
  ((writesBatch_all hdim).eq_ok points buf _ hbuf).2 ⟨_, mapM_eq_map fun _ _ => rfl, rfl⟩

/-- A batch of numbers of points. -/
theorem writesBatch_compact (hdim : f.dim ≠ 0) :
    WritesBatch f.dim (fun part => f.evaluate t points (.compact part))
      (f.componentsAt t points) := by
  refine ⟨fun part slot out hslot => ?_, fun x v => length_componentsAt⟩
  rw [evaluate, forEach_compact_eq_ok (f.writes_componentsAt t points), ← hslot, List.drop_length]
  simp [hdim]

end SpaceTimeFunction

namespace BulkEvaluator

variable {ev : BulkEvaluator R} {points : List (Vec3 R)} {f : SpaceTimeFunction R}
  {sel : Selection} {t : R} {buf out : Buffer R}

/-- The points of a batched evaluation are those of the list. -/
theorem componentsAt_of_slice {n : Nat} {front : List (Vec3 R)}
    (hfront : slice points 0 n = .ok front) {k : Nat} (hk : k < n) :
    (do .ok (f.components t (← fetch front k))) = f.componentsAt t points k := by
  obtain ⟨-, hn, rfl⟩ := slice_eq_ok.1 hfront
  have hpoint : fetch ((points.drop 0).take (n - 0)) k = fetch points k := by
    rw [fetch, fetch, List.drop_zero, Nat.sub_zero, List.getElem?_take_of_lt hk]
  rw [hpoint, SpaceTimeFunction.componentsAt]
  rfl

/-- **A function at selected points fills the slots of the selection**, at once or in batches. -/
theorem filled_functionAt (hs : ev.schedule.Valid)
    (hrun : ev.functionAt points f sel t buf = .ok out) :
    Filled f.dim (sel.slotValue (f.componentsAt t points)) (· ∈ sel.targets) buf out := by
  have hwrites := f.writes_componentsAt t points
  have hsize : 0 < max ev.settings.parallelThreshold 1 := Nat.lt_of_lt_of_le Nat.one_pos
    (Nat.le_max_right _ _)
  rw [functionAt] at hrun
  by_cases hlen : sel.length < ev.settings.parallelThreshold
  · rw [if_pos hlen] at hrun
    exact hwrites.filled_forEach hrun
  · rw [if_neg hlen] at hrun
    cases sel with
    | all n =>
      obtain ⟨hreq, hrun⟩ := unit_bind_eq_ok.1 hrun
      obtain ⟨front, hfront, hrun⟩ := bind_eq_ok.1 hrun
      have hdim := (requireSlots_eq_ok.1 hreq).2
      have hcount : front.length = n := length_of_slice_eq_ok hfront
      refine ((SpaceTimeFunction.writesBatch_all hdim).filled hdim hsize hs.order_perm hrun).congr
        (fun k => by rw [mem_targets_all, hcount]) fun k hk => ?_
      exact (componentsAt_of_slice hfront (mem_targets_all.1 hk)).symm
    | compact ids =>
      obtain ⟨hreq, hrun⟩ := unit_bind_eq_ok.1 hrun
      have hdim := (requireSlots_eq_ok.1 hreq).2
      have hfilled :=
        (SpaceTimeFunction.writesBatch_compact hdim).filled hdim hsize hs.order_perm hrun
      exact hfilled.congr (fun k => mem_targets_compact) fun _ _ => rfl
    | scattered ids => exact hwrites.filled_forEach hrun

/-- **A function is evaluated at selected points** when the buffer has room and all points exist. -/
theorem exists_functionAt (hs : ev.schedule.Valid) (hdim : f.dim ≠ 0)
    (hfits : sel.Fits f.dim buf)
    (hval : ∀ e ∈ sel.entities, ∃ v, f.componentsAt t points e = .ok v) :
    ∃ out, ev.functionAt points f sel t buf = .ok out := by
  have hwrites := f.writes_componentsAt t points
  have hsize : 0 < max ev.settings.parallelThreshold 1 := Nat.lt_of_lt_of_le Nat.one_pos
    (Nat.le_max_right _ _)
  rw [functionAt]
  by_cases hlen : sel.length < ev.settings.parallelThreshold
  · rw [if_pos hlen]
    exact hwrites.exists_forEach hdim hfits hval
  · rw [if_neg hlen]
    cases sel with
    | all n =>
      have hroom := Fits.mul_le fun k hk => hfits k (mem_targets_all.2 hk)
      have hpoints : n ≤ points.length := by
        by_contra hlt
        obtain ⟨v, hv⟩ := hval points.length (List.mem_range.2 (by omega))
        obtain ⟨x, hx, -⟩ := bind_eq_ok.1 hv
        exact Nat.lt_irrefl _ (lt_of_fetch_eq_ok hx)
      have hfront : slice points 0 n = .ok (points.take n) := by
        rw [slice, if_pos ⟨Nat.zero_le n, hpoints⟩, List.drop_zero, Nat.sub_zero]
      simp only [requireSlots_eq_ok.2 ⟨hroom, hdim⟩, hfront, ok_bind]
      exact (SpaceTimeFunction.writesBatch_all hdim).exists_eq_ok hdim hsize hs.order_perm
        (by rwa [List.length_take_of_le hpoints]) fun x _ => ⟨_, rfl⟩
    | compact ids =>
      have hroom := Fits.mul_le fun k hk => hfits k (mem_targets_compact.2 hk)
      simp only [requireSlots_eq_ok.2 ⟨hroom, hdim⟩, ok_bind]
      exact (SpaceTimeFunction.writesBatch_compact hdim).exists_eq_ok hdim hsize hs.order_perm hroom
        hval
    | scattered ids => exact hwrites.exists_forEach hdim hfits hval

end BulkEvaluator

end Polyfield
