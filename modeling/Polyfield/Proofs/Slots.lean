import Mathlib.Data.List.Basic
import Polyfield.Proofs.Success
import Polyfield.Quantity

/-!
# Slots of a buffer

What a buffer holds after its slots have been rewritten.

* `updateSlot_eq_ok` : rewriting one slot replaces its entries and nothing else;
* `Selection.fillSlots_eq_ok` : rewriting consecutive slots puts their new values one after the
  other;
* `Selection.fillSlots_eq_ok_of_steps` : and so it does when they depend on what the slots held;
* `Selection.foldlM_updateSlot_range` : rewriting them by their positions is the same.
-/

namespace Polyfield

variable {α : Type}

/-! ## One slot -/

theorem updateSlot_eq_ok {start len : Nat} {f : List α → Except Breach (List α)}
    {buf out : List α} : updateSlot start len f buf = .ok out ↔
      start + len ≤ buf.length ∧ ∃ slot, f ((buf.drop start).take len) = .ok slot ∧
        out = buf.take start ++ slot ++ buf.drop (start + len) := by
  unfold updateSlot
  by_cases h : start + len ≤ buf.length
  · rw [if_pos h, bind_eq_ok]
    simp only [pure_eq_ok, Except.ok.injEq, h, true_and, @eq_comm _ out]
  · simp [h]

/-- Rewriting the first entries of a buffer that is long enough. -/
theorem updateFirst_eq_ok {len : Nat} {f : List α → Except Breach (List α)} {buf out : List α} :
    updateFirst len f buf = .ok out ↔
      len ≤ buf.length ∧ ∃ slot, f (buf.take len) = .ok slot ∧ out = slot ++ buf.drop len := by
  rw [updateFirst, updateSlot_eq_ok]
  simp

theorem overwriteFirst_eq_ok {values buf : List α} (h : values.length ≤ buf.length) :
    overwriteFirst values buf = .ok (values ++ buf.drop values.length) :=
  if_pos h

/-- Putting values in place of all entries of a slot. -/
theorem overwriteFirst_of_length {values slot : List α} (h : slot.length = values.length) :
    overwriteFirst values slot = .ok values := by
  rw [overwriteFirst_eq_ok (Nat.le_of_eq h.symm), ← h, List.drop_length, List.append_nil]

/-- Reading a slot. -/
theorem slice_slot_eq_ok {size k : Nat} {xs : List α} (h : size * (k + 1) ≤ xs.length) :
    slice xs (size * k) (size * (k + 1)) = .ok ((xs.drop (size * k)).take size) := by
  refine slice_eq_ok.2 ⟨Nat.mul_le_mul_left _ (by omega), h, ?_⟩
  rw [Nat.mul_succ, Nat.add_sub_cancel_left]

/-- A list in blocks is the list of its parts. -/
theorem blocks_flatten {size : Nat} {vs : List (List α)} (h : ∀ v ∈ vs, v.length = size) :
    blocks size vs.length vs.flatten = vs := by
  induction vs with
  | nil => rfl
  | cons v vs ih =>
    obtain ⟨hv, hvs⟩ := List.forall_mem_cons.1 h
    rw [List.length_cons, blocks, List.flatten_cons, List.take_left' hv, List.drop_left' hv,
      ih hvs]

/-- An entry of a list of slots, by the number of its slot. -/
theorem getElem?_flatten_slot {dim : Nat} {vs : List (List α)} (h : ∀ v ∈ vs, v.length = dim)
    (i : Nat) {k : Nat} (hk : k < dim) : vs.flatten[dim * i + k]? = vs[i]?.bind (·[k]?) := by
  induction vs generalizing i with
  | nil => simp
  | cons v vs ih =>
    obtain ⟨hv, hvs⟩ := List.forall_mem_cons.1 h
    cases i with
    | zero =>
      rw [List.flatten_cons, Nat.mul_zero, Nat.zero_add, List.getElem?_append_left (by omega)]
      rfl
    | succ i =>
      have hpos : dim * (i + 1) + k - v.length = dim * i + k := by
        rw [hv, Nat.mul_succ]
        omega
      rw [List.flatten_cons, List.getElem?_append_right (by rw [hv, Nat.mul_succ]; omega), hpos,
        ih hvs i, List.getElem?_cons_succ]

/-- A block of a list by its number. -/
theorem getElem?_blocks {size count i : Nat} {xs : List α} (hi : i < count) :
    (blocks size count xs)[i]? = some ((xs.drop (size * i)).take size) := by
  induction count generalizing i xs with
  | zero => exact absurd hi (Nat.not_lt_zero i)
  | succ count ih =>
    cases i with
    | zero => simp [blocks]
    | succ i =>
      rw [blocks, List.getElem?_cons_succ, ih (Nat.lt_of_succ_lt_succ hi), List.drop_drop,
        Nat.mul_succ, Nat.add_comm]

/-- The blocks of a list that is long enough are full. -/
theorem length_of_mem_blocks {size count : Nat} {xs b : List α} (h : size * count ≤ xs.length)
    (hb : b ∈ blocks size count xs) : b.length = size := by
  induction count generalizing xs with
  | zero => simp [blocks] at hb
  | succ count ih =>
    rw [Nat.mul_succ] at h
    rcases List.mem_cons.1 hb with rfl | hb
    · exact List.length_take_of_le (by omega)
    · exact ih (by rw [List.length_drop]; omega) hb

theorem blocks_replicate (dim count : Nat) (a : α) :
    blocks dim count (List.replicate (dim * count) a) =
      List.replicate count (List.replicate dim a) := by
  induction count with
  | zero => rfl
  | succ count ih =>
    have hsplit : dim * (count + 1) = dim + dim * count := by rw [Nat.mul_succ, Nat.add_comm]
    rw [blocks, hsplit, List.take_replicate, List.drop_replicate,
      Nat.min_eq_left (Nat.le_add_right _ _), Nat.add_sub_cancel_left, ih, List.replicate_succ]

theorem Value.writeTo_eq_ok {R : Type} {v : Value R} {buf : Buffer R} (h : v.dim ≤ buf.length) :
    v.writeTo buf = .ok (v.components ++ buf.drop v.dim) := by
  rw [← v.length_components] at h ⊢
  exact overwriteFirst_eq_ok h

/-- A routine that never refuses succeeds if its update does. -/
theorem Fill.ofUpdate_eq_ok {R : Type} {f : Buffer R → Except Breach (Buffer R)}
    {buf out : Buffer R} : Fill.ofUpdate f buf = .ok () out ↔ f buf = .ok out := by
  unfold Fill.ofUpdate
  cases f buf <;> simp

/-- What follows a step that succeeds. -/
theorem Fill.bind_of_run_ok {R α β : Type} {m : Fill R α} {k : α → Fill R β} {buf out : Buffer R}
    {a : α} (h : m buf = .ok a out) : (m >>= k) buf = k a out := by
  simp [bind, EStateM.bind, h]

/-- Nothing follows a step that fails. -/
theorem Fill.bind_of_run_error {R α β : Type} {m : Fill R α} {k : α → Fill R β}
    {buf out : Buffer R} {e : Fault} (h : m buf = .error e out) :
    (m >>= k) buf = .error e out := by
  simp [bind, EStateM.bind, h]

/-- A step that only reads hands its result on. -/
theorem Fill.lift_bind {R β γ : Type} {x : Except Fault β} {b : β} (hx : x = .ok b)
    (k : β → Fill R γ) (buf : Buffer R) : ((liftM x : Fill R β) >>= k) buf = k b buf := by
  rw [hx]
  rfl

/-- Routines that agree on what a step reads agree. -/
theorem Fill.lift_bind_congr {R α β : Type} {x : Except Fault α} {f g : α → Fill R β}
    (h : ∀ a, x = .ok a → f a = g a) :
    ((liftM x : Fill R α) >>= f) = ((liftM x : Fill R α) >>= g) := by
  funext buf
  cases x with
  | error e => rfl
  | ok a => exact congrFun (h a rfl) buf

/-- A check in front of a routine that passes. -/
theorem Fill.check_bind {R β : Type} {check : Except Breach Unit} (h : check = .ok ())
    {k : Fill R β} {buf : Buffer R} :
    ((Fill.ofUpdate fun buf => do check; return buf) >>= fun _ => k) buf = k buf := by
  subst h
  rfl

/-- A check in front of a routine that does not pass. -/
theorem Fill.check_bind_error {R β : Type} {check : Except Breach Unit} {b : Breach}
    (h : check = .error b) {k : Fill R β} {buf : Buffer R} :
    ((Fill.ofUpdate fun buf => do check; return buf) >>= fun _ => k) buf =
      .error (.breached b) buf := by
  subst h
  rfl

namespace Selection

variable {dim : Nat} {f : Nat → List α → Except Breach (List α)}
  {val : Nat → Except Breach (List α)}

/-- A routine that fills slots of `dim` entries with values that do not depend on what the slots
held before. -/
structure Writes (dim : Nat) (f : Nat → List α → Except Breach (List α))
    (val : Nat → Except Breach (List α)) : Prop where
  eq : ∀ e slot, slot.length = dim → f e slot = val e
  length_eq : ∀ e v, val e = .ok v → v.length = dim

/-- Writing a constant fills the slots of its dimension. -/
theorem writes_writeTo {R : Type} (v : Value R) :
    Writes v.dim (fun _ slot => v.writeTo slot) fun _ => .ok v.components := by
  refine ⟨fun e slot hslot => ?_, fun e w hw => ?_⟩
  · exact overwriteFirst_of_length (hslot.trans v.length_components.symm)
  · rw [← Except.ok.inj hw, v.length_components]

/-! ## Consecutive slots -/

/-- **Consecutive slots hold the values of their entities, one after the other.** -/
theorem fillSlots_eq_ok (h : Writes dim f val) {es : List Nat} {buf out : List α}
    (hbuf : dim * es.length ≤ buf.length) : fillSlots dim f es buf = .ok out ↔
      ∃ vs, es.mapM val = .ok vs ∧ out = vs.flatten ++ buf.drop (dim * es.length) := by
  induction es generalizing buf out with
  | nil => simp [fillSlots, eq_comm]
  | cons e es ih =>
    rw [List.length_cons, Nat.mul_succ] at hbuf
    have hslot : f e (buf.take dim) = val e := h.eq e _ (by rw [List.length_take]; omega)
    have hrest : dim * es.length ≤ (buf.drop dim).length := by rw [List.length_drop]; omega
    have hdrop : (buf.drop dim).drop (dim * es.length) = buf.drop (dim * (es.length + 1)) := by
      rw [List.drop_drop, Nat.mul_succ, Nat.add_comm]
    simp only [fillSlots, hslot, bind_eq_ok, ih hrest, pure_eq_ok, Except.ok.injEq, hdrop,
      List.mapM_cons, List.length_cons]
    constructor
    · rintro ⟨v, hv, rest, ⟨vs, hvs, rfl⟩, rfl⟩
      exact ⟨v :: vs, ⟨v, hv, vs, hvs, rfl⟩, by rw [List.flatten_cons, List.append_assoc]⟩
    · rintro ⟨_, ⟨v, hv, vs, hvs, rfl⟩, rfl⟩
      exact ⟨v, hv, _, ⟨vs, hvs, rfl⟩, by rw [List.flatten_cons, List.append_assoc]⟩

/-- Slots that are rewritten from what they held, one after the other. -/
theorem fillSlots_eq_ok_of_steps (dim : Nat) {f : Nat → List α → Except Breach (List α)}
    {g : Nat → List α → List α} (hf : ∀ e s, f e s = .ok (g e s)) (es : List Nat) (buf : List α) :
    fillSlots dim f es buf =
      .ok ((List.zipWith g es (blocks dim es.length buf)).flatten ++
        buf.drop (dim * es.length)) := by
  induction es generalizing buf with
  | nil => rfl
  | cons e es ih =>
    have hdrop : (buf.drop dim).drop (dim * es.length) = buf.drop (dim * (es.length + 1)) := by
      rw [List.drop_drop, Nat.mul_succ, Nat.add_comm]
    rw [fillSlots, hf, ok_bind, ih, ok_bind, hdrop, List.length_cons, blocks,
      List.zipWith_cons_cons, List.flatten_cons, List.append_assoc]
    rfl

/-- **Rewriting consecutive slots by their positions**, in order, is rewriting one after the
other. -/
theorem foldlM_updateSlot_range (hf : ∀ e s t, f e s = .ok t → t.length = s.length) (n : Nat)
    {buf : List α} (hbuf : dim * n ≤ buf.length) :
    (List.range n).foldlM (fun out k => updateSlot (dim * k) dim (f k) out) buf =
      fillSlots dim f (List.range n) buf := by
  -- the slots in front of position `k` are done
  have hfrom : ∀ n k (done rest : List α), done.length = dim * k → dim * n ≤ rest.length →
      (List.range' k n).foldlM (fun out k => updateSlot (dim * k) dim (f k) out) (done ++ rest) =
        (do return done ++ (← fillSlots dim f (List.range' k n) rest)) := by
    intro n
    induction n with
    | zero =>
      intro k done rest _ _
      rfl
    | succ n ih =>
      intro k done rest hdone hrest
      rw [Nat.mul_succ] at hrest
      rw [List.range'_succ, List.foldlM_cons, fillSlots, updateSlot,
        if_pos (by rw [List.length_append]; omega), List.drop_left' hdone, List.take_left' hdone]
      cases hs : f k (rest.take dim) with
      | error b => rfl
      | ok slot =>
        have hslot : slot.length = dim := by
          rw [hf _ _ _ hs, List.length_take]
          omega
        have hnext : (done ++ rest).drop (dim * k + dim) = rest.drop dim := by
          rw [← List.drop_drop, List.drop_left' hdone]
        have hih := ih (k + 1) (done ++ slot) (rest.drop dim)
          (by rw [List.length_append, hdone, hslot, Nat.mul_succ])
          (by rw [List.length_drop]; omega)
        rw [ok_bind, pure_eq_ok, ok_bind, hnext, hih]
        cases fillSlots dim f (List.range' (k + 1) n) (rest.drop dim) with
        | error b => rfl
        | ok out => exact congrArg Except.ok (List.append_assoc _ _ _)
  have hrun := hfrom n 0 [] buf rfl hbuf
  rw [← List.range_eq_range', List.nil_append] at hrun
  rw [hrun]
  cases fillSlots dim f (List.range n) buf <;> rfl

/-! ## Dense selections -/

theorem requireSlots_eq_ok {n : Nat} {buf : List α} :
    requireSlots dim n buf = .ok () ↔ dim * n ≤ buf.length ∧ dim ≠ 0 := by
  unfold requireSlots
  rw [ite_error_eq_ok, ite_error_eq_ok, Nat.mul_comm, Nat.not_lt]
  simp

/-- Entities in the order of a list. -/
theorem forEach_compact_eq_ok (h : Writes dim f val) {ids : List Nat} {buf out : List α} :
    (compact ids).forEach dim f buf = .ok out ↔ dim * ids.length ≤ buf.length ∧ dim ≠ 0 ∧
      ∃ vs, ids.mapM val = .ok vs ∧ out = vs.flatten ++ buf.drop (dim * ids.length) := by
  rw [forEach, unit_bind_eq_ok, requireSlots_eq_ok, and_assoc]
  exact and_congr_right fun hbuf => and_congr_right fun _ => fillSlots_eq_ok h hbuf

/-- The first entities in their slots. -/
theorem forEach_all_eq_ok (h : Writes dim f val) {n : Nat} {buf out : List α} :
    (all n).forEach dim f buf = .ok out ↔ dim * n ≤ buf.length ∧ dim ≠ 0 ∧
      ∃ vs, (List.range n).mapM val = .ok vs ∧ out = vs.flatten ++ buf.drop (dim * n) := by
  have hforEach : (all n).forEach dim f buf = (compact (List.range n)).forEach dim f buf := by
    rw [forEach, forEach, List.length_range]
  rw [hforEach, forEach_compact_eq_ok h, List.length_range]

end Selection

end Polyfield
