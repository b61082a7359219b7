import Polyfield.Proofs.Slots

/-!
# What the slots of a buffer hold

Slots of `dim` entries are filled in some order, one or several at a time, some of them more than
once.  If the values of a slot depend on its number alone, the order does not matter: `Filled`
says that some slots hold their values and that every other entry is as it was, and two such runs
make one (`Filled.trans`).

* `Filled.foldlM` : a loop fills the slots that its steps fill;
* `Filled.unique` : what a buffer holds afterwards is determined;
* `Selection.Writes.filled_parForEach` : bulk evaluation fills the slots of its selection, whatever
  the threshold and the order;
* `Selection.Writes.exists_parForEach` : and it succeeds when the buffer is long enough and all
  values exist.
-/

namespace Polyfield

variable {α β : Type} {dim : Nat}

/-! ## Slots -/

/-- Two buffers that agree on the entries of a slot. -/
theorem slice_congr {xs ys : List α} {start stop : Nat} (hlen : xs.length = ys.length)
    (h : ∀ j, start ≤ j → j < stop → xs[j]? = ys[j]?) :
    slice xs start stop = slice ys start stop := by
  unfold slice
  rw [hlen]
  by_cases hb : start ≤ stop ∧ stop ≤ ys.length
  · rw [if_pos hb, if_pos hb]
    refine congrArg Except.ok (List.ext_getElem? fun i => ?_)
    simp only [List.getElem?_take, List.getElem?_drop]
    by_cases hi : i < stop - start
    · rw [if_pos hi, if_pos hi]
      exact h (start + i) (by omega) (by omega)
    · rw [if_neg hi, if_neg hi]
  · rw [if_neg hb, if_neg hb]

/-- The part in the middle of a list. -/
theorem slice_middle {xs ys zs : List α} {start stop : Nat} (hstart : start = xs.length)
    (hstop : stop = xs.length + ys.length) : slice (xs ++ ys ++ zs) start stop = .ok ys := by
  subst hstart hstop
  rw [slice, if_pos ⟨by omega, by simp⟩, List.append_assoc, List.drop_left, Nat.add_sub_cancel_left,
    List.take_left]

/-- Slots of different numbers have no entry in common. -/
theorem slot_unique {k l j : Nat} (hk : dim * k ≤ j ∧ j < dim * (k + 1))
    (hl : dim * l ≤ j ∧ j < dim * (l + 1)) : k = l := by
  have hdiv : ∀ n, dim * n ≤ j ∧ j < dim * (n + 1) → j / dim = n := fun n hn =>
    Nat.div_eq_of_lt_le (by rw [Nat.mul_comm]; exact hn.1) (by rw [Nat.mul_comm]; exact hn.2)
  rw [← hdiv k hk, hdiv l hl]

theorem length_flatten_of_forall {vs : List (List α)} (h : ∀ v ∈ vs, v.length = dim) :
    vs.flatten.length = dim * vs.length := by
  have hall : ∀ n ∈ vs.map List.length, n = dim := fun n hn => by
    obtain ⟨v, hv, rfl⟩ := List.mem_map.1 hn
    exact h v hv
  rw [List.length_flatten, List.eq_replicate_of_mem hall, List.sum_replicate_nat, List.length_map,
    Nat.mul_comm]

/-- A list of lists around one of them. -/
theorem flatten_around (vs : List (List α)) {i : Nat} (hi : i < vs.length) :
    vs.flatten = (vs.take i).flatten ++ vs[i] ++ (vs.drop (i + 1)).flatten := by
  conv_lhs => rw [← List.take_append_drop i vs, List.drop_eq_getElem_cons hi]
  rw [List.flatten_append, List.flatten_cons, List.append_assoc]

/-- One of several slots in front of a rest. -/
theorem take_drop_flatten_append {vs : List (List α)} (hvs : ∀ v ∈ vs, v.length = dim)
    (rest : List α) {k : Nat} (hk : k < vs.length) :
    ((vs.flatten ++ rest).drop (dim * k)).take dim = vs[k] := by
  have hfront : (vs.take k).flatten.length = dim * k := by
    rw [length_flatten_of_forall fun v hv => hvs v (List.mem_of_mem_take hv),
      List.length_take_of_le (Nat.le_of_lt hk)]
  rw [flatten_around vs hk, List.append_assoc, List.append_assoc, List.drop_left' hfront,
    List.take_left' (hvs _ (List.getElem_mem hk))]

/-! ## Filled slots -/

/-- The slots `k` with `S k` hold the values `c k`, and every other entry is as it was. -/
structure Filled (dim : Nat) (c : Nat → Except Breach (List α)) (S : Nat → Prop)
    (buf out : List α) : Prop where
  length_eq : out.length = buf.length
  slot : ∀ k, S k → ∃ v, c k = .ok v ∧ slice out (dim * k) (dim * (k + 1)) = .ok v
  frame : ∀ j, (∀ k, S k → ¬(dim * k ≤ j ∧ j < dim * (k + 1))) → out[j]? = buf[j]?

namespace Filled

variable {c c' : Nat → Except Breach (List α)} {S T : Nat → Prop} {buf mid out out' : List α}

protected theorem refl (dim : Nat) (c : Nat → Except Breach (List α)) (buf : List α) :
    Filled dim c (fun _ => False) buf buf :=
  ⟨rfl, fun _ h => h.elim, fun _ _ => rfl⟩

/-- **Filling some slots and then others** fills them all. -/
protected theorem trans (h₁ : Filled dim c S buf mid) (h₂ : Filled dim c T mid out) :
    Filled dim c (fun k => S k ∨ T k) buf out where
  length_eq := h₂.length_eq.trans h₁.length_eq
  slot k hk := by
    by_cases hT : T k
    · exact h₂.slot k hT
    · obtain ⟨v, hv, hslot⟩ := h₁.slot k (hk.resolve_right hT)
      refine ⟨v, hv, ?_⟩
      rw [← hslot]
      refine slice_congr h₂.length_eq fun j hj hj' => h₂.frame j fun l hl hlj => hT ?_
      rwa [slot_unique ⟨hj, hj'⟩ hlj]
  frame j hj :=
    (h₂.frame j fun k hk => hj k (Or.inr hk)).trans (h₁.frame j fun k hk => hj k (Or.inl hk))

theorem congr (h : Filled dim c S buf out) (hS : ∀ k, T k ↔ S k) (hc : ∀ k, T k → c' k = c k) :
    Filled dim c' T buf out where
  length_eq := h.length_eq
  slot k hk := by
    rw [hc k hk]
    exact h.slot k ((hS k).1 hk)
  frame j hj := h.frame j fun k hk => hj k ((hS k).2 hk)

/-- What a buffer holds after its slots have been filled is determined. -/
theorem unique (h : Filled dim c S buf out) (h' : Filled dim c S buf out') : out = out' := by
  refine List.ext_getElem? fun j => ?_
  by_cases hj : ∃ k, S k ∧ dim * k ≤ j ∧ j < dim * (k + 1)
  · obtain ⟨k, hk, hj, hj'⟩ := hj
    obtain ⟨v, hv, hslot⟩ := h.slot k hk
    obtain ⟨v', hv', hslot'⟩ := h'.slot k hk
    cases hv.symm.trans hv'
    have hentry : ∀ xs : List α, slice xs (dim * k) (dim * (k + 1)) = .ok v →
        xs[j]? = v[j - dim * k]? := by
      intro xs hxs
      obtain ⟨-, -, rfl⟩ := slice_eq_ok.1 hxs
      rw [List.getElem?_take_of_lt (by omega), List.getElem?_drop, Nat.add_sub_cancel' hj]
    rw [hentry out hslot, hentry out' hslot']
  · have hout : ∀ k, S k → ¬(dim * k ≤ j ∧ j < dim * (k + 1)) := fun k hk h => hj ⟨k, hk, h⟩
    rw [h.frame j hout, h'.frame j hout]

/-- Consecutive slots in the middle of a buffer. -/
theorem flatten {vs : List (List α)} (hvs : ∀ v ∈ vs, v.length = dim) {k : Nat}
    (hbuf : dim * k + dim * vs.length ≤ buf.length)
    (hc : ∀ i (hi : i < vs.length), c (k + i) = .ok vs[i]) :
    Filled dim c (fun l => k ≤ l ∧ l < k + vs.length) buf
      (buf.take (dim * k) ++ vs.flatten ++ buf.drop (dim * k + dim * vs.length)) := by
  have hlen := length_flatten_of_forall hvs
  have hfront : (buf.take (dim * k)).length = dim * k := List.length_take_of_le (by omega)
  refine ⟨?_, fun l hl => ?_, fun j hj => ?_⟩
  · simp only [List.length_append, List.length_drop]
    omega
  · obtain ⟨i, rfl⟩ : ∃ i, l = k + i := ⟨l - k, by omega⟩
    have hi : i < vs.length := by omega
    refine ⟨vs[i], hc i hi, ?_⟩
    have htake : (vs.take i).flatten.length = dim * i := by
      rw [length_flatten_of_forall fun v hv => hvs v (List.mem_of_mem_take hv),
        List.length_take_of_le (Nat.le_of_lt hi)]
    have hvi : vs[i].length = dim := hvs _ (List.getElem_mem hi)
    rw [flatten_around vs hi, ← List.append_assoc, ← List.append_assoc, List.append_assoc _ _
      (buf.drop _)]
    refine slice_middle ?_ ?_
    · rw [List.length_append, hfront, htake, Nat.mul_add]
    · rw [List.length_append, hfront, htake, hvi, Nat.mul_succ, Nat.mul_add]
  · -- an entry in none of the slots is in front of them or behind
    by_cases hjk : j < dim * k
    · rw [List.append_assoc, List.getElem?_append_left (by omega), List.getElem?_take_of_lt hjk]
    · have hback : dim * k + dim * vs.length ≤ j := by
        by_contra hlt
        have hdim : 0 < dim := Nat.pos_of_ne_zero fun h0 => by
          rw [h0] at hlt
          omega
        refine hj (j / dim) ⟨?_, ?_⟩ ⟨Nat.mul_div_le j dim, Nat.lt_mul_div_succ j hdim⟩
        · rw [Nat.le_div_iff_mul_le hdim, Nat.mul_comm]
          omega
        · rw [Nat.div_lt_iff_lt_mul hdim, Nat.mul_comm, Nat.mul_add]
          omega
      have hfilled : (buf.take (dim * k) ++ vs.flatten).length = dim * k + dim * vs.length := by
        rw [List.length_append, hfront, hlen]
      rw [List.getElem?_append_right (by omega), hfilled, List.getElem?_drop,
        Nat.add_sub_cancel' hback]

/-- Rewriting consecutive slots by a routine that puts their values one after the other. -/
theorem updateSlot {f : List α → Except Breach (List α)} {k n : Nat}
    (hf : ∀ slot new, slot.length = dim * n → f slot = .ok new → ∃ vs : List (List α),
      new = vs.flatten ∧ vs.length = n ∧ (∀ v ∈ vs, v.length = dim) ∧
        ∀ i (hi : i < vs.length), c (k + i) = .ok vs[i])
    (h : Polyfield.updateSlot (dim * k) (dim * n) f buf = .ok out) :
    Filled dim c (fun l => k ≤ l ∧ l < k + n) buf out := by
  obtain ⟨hlen, new, hnew, rfl⟩ := updateSlot_eq_ok.1 h
  have hslot : ((buf.drop (dim * k)).take (dim * n)).length = dim * n := by
    rw [List.length_take, List.length_drop]
    omega
  obtain ⟨vs, rfl, rfl, hvs, hc⟩ := hf _ _ hslot hnew
  exact flatten hvs hlen hc

/-- **A loop fills the slots that its steps fill.** -/
theorem foldlM {step : List α → β → Except Breach (List α)} {S : β → Nat → Prop} {xs : List β}
    (hstep : ∀ x ∈ xs, ∀ mid out, step mid x = .ok out → Filled dim c (S x) mid out)
    {buf out : List α} (h : xs.foldlM step buf = .ok out) :
    Filled dim c (fun k => ∃ x ∈ xs, S x k) buf out := by
  induction xs generalizing buf with
  | nil =>
    cases h
    exact (Filled.refl dim c out).congr (by simp) fun _ _ => rfl
  | cons x xs ih =>
    rw [List.foldlM_cons, bind_eq_ok] at h
    obtain ⟨mid, hmid, hrest⟩ := h
    have hfirst := hstep x List.mem_cons_self buf mid hmid
    have hthen := ih (fun y hy => hstep y (List.mem_cons_of_mem x hy)) hrest
    refine (hfirst.trans hthen).congr (fun k => ?_) fun _ _ => rfl
    simp only [List.mem_cons, exists_eq_or_imp]

end Filled

/-- Rewriting one slot by a routine that is given the length of the slot. -/
theorem exists_updateSlot_eq_ok {f : List α → Except Breach (List α)} {start len : Nat}
    {buf v : List α} (hlen : start + len ≤ buf.length)
    (hf : ∀ slot, slot.length = len → f slot = .ok v) (hv : v.length = len) :
    ∃ out, updateSlot start len f buf = .ok out ∧ out.length = buf.length := by
  have hslot : ((buf.drop start).take len).length = len := by
    rw [List.length_take, List.length_drop]
    omega
  refine ⟨_, updateSlot_eq_ok.2 ⟨hlen, v, hf _ hslot, rfl⟩, ?_⟩
  simp only [List.length_append, List.length_take, List.length_drop, hv]
  omega

/-! ## Selections -/

namespace Selection

variable {f : Nat → List α → Except Breach (List α)} {val : Nat → Except Breach (List α)}
  {c : Nat → Except Breach (List α)} {buf out : List α}

/-- The slots of a selection, in the order of its entities. -/
def targets : Selection → List Nat
  | all n => List.range n
  | scattered ids => ids
  | compact ids => List.range ids.length

@[simp] theorem mem_targets_all {n k : Nat} : k ∈ (all n).targets ↔ k < n := List.mem_range

@[simp] theorem mem_targets_compact {ids : List Nat} {k : Nat} :
    k ∈ (compact ids).targets ↔ k < ids.length := List.mem_range

/-- The values of the slots of a selection: those of the entities that are put there. -/
def slotValue (val : Nat → Except Breach (List α)) : Selection → Nat → Except Breach (List α)
  | all _, k | scattered _, k => val k
  | compact ids, k => do val (← fetch ids k)

/-- The first entities are their own positions. -/
theorem slotValue_all (val : Nat → Except Breach (List α)) {n k : Nat} (hk : k < n) :
    (do val (← fetch (List.range n) k)) = (all n).slotValue val k := by
  rw [fetch_of_lt (show k < (List.range n).length by rwa [List.length_range]), ok_bind,
    List.getElem_range]
  rfl

/-- The buffer has room for the slots of a selection. -/
def Fits (dim : Nat) (buf : List α) (s : Selection) : Prop :=
  ∀ k ∈ s.targets, dim * (k + 1) ≤ buf.length

/-- One slot. -/
theorem Writes.filled_updateSlot (h : Writes dim f val) {e k : Nat} (hc : c k = val e)
    (hrun : updateSlot (dim * k) dim (f e) buf = .ok out) :
    Filled dim c (fun l => l = k) buf out := by
  have hone : updateSlot (dim * k) (dim * 1) (f e) buf = .ok out := by rwa [Nat.mul_one]
  refine (Filled.updateSlot (c := c) (n := 1) (fun slot new hslot hnew => ?_) hone).congr
    (fun l => by omega) fun _ _ => rfl
  rw [Nat.mul_one] at hslot
  rw [h.eq e slot hslot] at hnew
  refine ⟨[new], by simp, rfl, by simpa using h.length_eq e new hnew, fun i hi => ?_⟩
  obtain rfl : i = 0 := by simpa using hi
  exact hc.trans hnew

/-- Consecutive slots from the first on. -/
theorem Writes.filled_fillSlots (h : Writes dim f val) {es : List Nat}
    (hbuf : dim * es.length ≤ buf.length) (hrun : fillSlots dim f es buf = .ok out) :
    Filled dim (fun k => do val (← fetch es k)) (fun k => k < es.length) buf out := by
  obtain ⟨vs, hvs, rfl⟩ := (fillSlots_eq_ok h hbuf).1 hrun
  have hlen := length_of_mapM_eq_ok hvs
  have hval : ∀ i (hi : i < vs.length), (do val (← fetch es i)) = .ok vs[i] := fun i hi => by
    have hes : i < es.length := by omega
    rw [fetch_of_lt hes, ok_bind, getElem_of_mapM_eq_ok hvs hes hi]
  have hdim : ∀ v ∈ vs, v.length = dim := fun v hv => by
    obtain ⟨e, -, hev⟩ := exists_of_mem_mapM hvs hv
    exact h.length_eq e v hev
  have hroom : dim * 0 + dim * vs.length ≤ buf.length := by rwa [Nat.mul_zero, Nat.zero_add, hlen]
  have hfilled := Filled.flatten (c := fun k => do val (← fetch es k)) hdim hroom fun i hi => by
    rw [Nat.zero_add, hval i hi]
  simp only [Nat.mul_zero, List.take_zero, List.nil_append, Nat.zero_add, hlen] at hfilled
  exact hfilled.congr (fun k => (and_iff_right (Nat.zero_le k)).symm) fun _ _ => rfl

/-- The slots of some entities in any order of their positions. -/
theorem Writes.filled_forEachInOrder (h : Writes dim f val) {es order : List Nat}
    (hrun : forEachInOrder dim f es order buf = .ok out) :
    Filled dim (fun k => do val (← fetch es k)) (fun k => k ∈ order) buf out := by
  refine (Filled.foldlM (S := fun i k => k = i) (fun i hi mid out hstep => ?_) hrun).congr
    (by simp) fun _ _ => rfl
  obtain ⟨e, he, hslot⟩ := bind_eq_ok.1 hstep
  rw [Nat.mul_comm] at hslot
  exact h.filled_updateSlot (by rw [he, ok_bind]) hslot

/-- **The slots of a selection, one after the other.** -/
theorem Writes.filled_forEach (h : Writes dim f val) {s : Selection}
    (hrun : s.forEach dim f buf = .ok out) :
    Filled dim (s.slotValue val) (· ∈ s.targets) buf out := by
  cases s with
  | all n =>
    obtain ⟨hreq, hfill⟩ := unit_bind_eq_ok.1 hrun
    have hbuf : dim * (List.range n).length ≤ buf.length := by
      rw [List.length_range]
      exact (requireSlots_eq_ok.1 hreq).1
    refine (h.filled_fillSlots hbuf hfill).congr (by simp) fun k hk => ?_
    exact (slotValue_all val (mem_targets_all.1 hk)).symm
  | compact ids =>
    obtain ⟨hreq, hfill⟩ := unit_bind_eq_ok.1 hrun
    exact (h.filled_fillSlots (requireSlots_eq_ok.1 hreq).1 hfill).congr (by simp)
      fun _ _ => rfl
  | scattered ids =>
    refine (Filled.foldlM (S := fun e k => k = e) (fun e he mid out hstep => ?_) hrun).congr
      (by simp [targets]) fun _ _ => rfl
    rw [Nat.mul_comm] at hstep
    exact h.filled_updateSlot rfl hstep

/-- **The slots of a selection, from the threshold on in any order.** -/
theorem Writes.filled_parForEach (h : Writes dim f val) {order : Nat → List Nat}
    (horder : ∀ n, (order n).Perm (List.range n)) {threshold : Nat} {s : Selection}
    (hrun : s.parForEach dim threshold f order buf = .ok out) :
    Filled dim (s.slotValue val) (· ∈ s.targets) buf out := by
  unfold parForEach at hrun
  by_cases hs : s.length < threshold
  · rw [if_pos hs] at hrun
    exact h.filled_forEach hrun
  · rw [if_neg hs] at hrun
    cases s with
    | all n =>
      obtain ⟨-, hfill⟩ := unit_bind_eq_ok.1 hrun
      refine (h.filled_forEachInOrder hfill).congr (fun k => (horder n).mem_iff.symm) fun k hk => ?_
      exact (slotValue_all val (mem_targets_all.1 hk)).symm
    | compact ids =>
      obtain ⟨-, hfill⟩ := unit_bind_eq_ok.1 hrun
      exact (h.filled_forEachInOrder hfill).congr (fun k => (horder _).mem_iff.symm) fun _ _ => rfl
    | scattered ids => exact h.filled_forEach hrun

/-! ## Success -/

theorem Fits.mul_le {n : Nat} (h : ∀ k < n, dim * (k + 1) ≤ buf.length) :
    dim * n ≤ buf.length := by
  cases n with
  | zero => exact Nat.zero_le _
  | succ n => exact h n (Nat.lt_succ_self n)

theorem Writes.exists_updateSlot (h : Writes dim f val) {e k : Nat} (he : ∃ v, val e = .ok v)
    (hroom : dim * (k + 1) ≤ buf.length) :
    ∃ out, updateSlot (dim * k) dim (f e) buf = .ok out ∧ out.length = buf.length := by
  obtain ⟨v, hv⟩ := he
  exact exists_updateSlot_eq_ok (by rwa [Nat.mul_succ] at hroom)
    (fun slot hslot => (h.eq e slot hslot).trans hv) (h.length_eq e v hv)

theorem Writes.exists_fillSlots (h : Writes dim f val) {es : List Nat}
    (hes : ∀ e ∈ es, ∃ v, val e = .ok v) (hroom : dim * es.length ≤ buf.length) :
    ∃ out, fillSlots dim f es buf = .ok out := by
  obtain ⟨vs, hvs⟩ := exists_mapM_eq_ok hes
  exact ⟨_, (fillSlots_eq_ok h hroom).2 ⟨vs, hvs, rfl⟩⟩

theorem Writes.exists_forEachInOrder (h : Writes dim f val) {es order : List Nat}
    (hes : ∀ e ∈ es, ∃ v, val e = .ok v) (horder : ∀ i ∈ order, i < es.length)
    (hroom : dim * es.length ≤ buf.length) :
    ∃ out, forEachInOrder dim f es order buf = .ok out := by
  refine (exists_foldlM_eq_ok (P := fun mid : List α => mid.length = buf.length)
    (fun mid i hi hmid => ?_) rfl).imp fun out hout => hout.1
  have hlt := horder i hi
  have hslot : dim * (i + 1) ≤ mid.length := by
    rw [hmid]
    exact Nat.le_trans (Nat.mul_le_mul_left dim hlt) hroom
  obtain ⟨out, hout, hlen⟩ := h.exists_updateSlot (hes _ (List.getElem_mem hlt)) hslot
  refine ⟨out, ?_, hlen.trans hmid⟩
  rw [fetch_of_lt hlt, ok_bind, Nat.mul_comm, hout]

theorem Writes.exists_forEach (h : Writes dim f val) (hdim : dim ≠ 0) {s : Selection}
    (hfits : s.Fits dim buf) (hval : ∀ e ∈ s.entities, ∃ v, val e = .ok v) :
    ∃ out, s.forEach dim f buf = .ok out := by
  cases s with
  | all n =>
    have hroom := Fits.mul_le fun k hk => hfits k (mem_targets_all.2 hk)
    rw [forEach, requireSlots_eq_ok.2 ⟨hroom, hdim⟩]
    exact h.exists_fillSlots hval (by rwa [List.length_range])
  | compact ids =>
    have hroom := Fits.mul_le fun k hk => hfits k (mem_targets_compact.2 hk)
    rw [forEach, requireSlots_eq_ok.2 ⟨hroom, hdim⟩]
    exact h.exists_fillSlots hval hroom
  | scattered ids =>
    refine (exists_foldlM_eq_ok (P := fun mid : List α => mid.length = buf.length)
      (fun mid e he hmid => ?_) rfl).imp fun out hout => hout.1
    have hslot : dim * (e + 1) ≤ mid.length := by
      rw [hmid]
      exact hfits e he
    obtain ⟨out, hout, hlen⟩ := h.exists_updateSlot (hval e he) hslot
    exact ⟨out, by rw [Nat.mul_comm, hout], hlen.trans hmid⟩

/-- **A loop over a selection succeeds** when the buffer has room and all values exist. -/
theorem Writes.exists_parForEach (h : Writes dim f val) {order : Nat → List Nat}
    (horder : ∀ n, (order n).Perm (List.range n)) (hdim : dim ≠ 0) {threshold : Nat}
    {s : Selection} (hfits : s.Fits dim buf) (hval : ∀ e ∈ s.entities, ∃ v, val e = .ok v) :
    ∃ out, s.parForEach dim threshold f order buf = .ok out := by
  unfold parForEach
  by_cases hs : s.length < threshold
  · rw [if_pos hs]
    exact h.exists_forEach hdim hfits hval
  · rw [if_neg hs]
    cases s with
    | all n =>
      have hroom := Fits.mul_le fun k hk => hfits k (mem_targets_all.2 hk)
      simp only [requireSlots_eq_ok.2 ⟨hroom, hdim⟩, ok_bind]
      refine h.exists_forEachInOrder hval (fun i hi => ?_) (by rwa [List.length_range])
      rw [List.length_range]
      exact List.mem_range.1 ((horder n).mem_iff.1 hi)
    | compact ids =>
      have hroom := Fits.mul_le fun k hk => hfits k (mem_targets_compact.2 hk)
      simp only [requireSlots_eq_ok.2 ⟨hroom, hdim⟩, ok_bind]
      exact h.exists_forEachInOrder hval
        (fun i hi => List.mem_range.1 ((horder _).mem_iff.1 hi)) hroom
    | scattered ids => exact h.exists_forEach hdim hfits hval

end Selection

end Polyfield
