import Polyfield.Proofs.EntityValues
import Polyfield.Proofs.ExactArithmetic

/-!
# Deposits

Routines that add to what a buffer holds make deposits: each adds an amount to one entry, and
neither the entries nor the amounts depend on the buffer.

* `deposit` : what a buffer holds after a list of deposits;
* `deposit_eq_zipWith` : in exact arithmetic, what it held before plus what the same deposits leave
  in a buffer of zeros;
* `AddsTo`, `AddsTo.foldlM` : a routine that makes deposits at some entries, and a loop of such
  routines;
* `AddsTo.updateSlot` : deposits in a slot of a buffer.
-/

namespace Polyfield

variable {R : Type} [Scalar R]

/-! ## Lists of deposits -/

/-- Add amounts to the entries of a buffer, one after the other. -/
def deposit (ds : List (Nat × R)) (buf : Buffer R) : Buffer R :=
  ds.foldl (fun out d => out.modify d.1 (· + d.2)) buf

@[simp] theorem deposit_nil (buf : Buffer R) : deposit [] buf = buf := rfl

theorem deposit_cons (d : Nat × R) (ds : List (Nat × R)) (buf : Buffer R) :
    deposit (d :: ds) buf = deposit ds (buf.modify d.1 (· + d.2)) := rfl

theorem deposit_append (ds es : List (Nat × R)) (buf : Buffer R) :
    deposit (ds ++ es) buf = deposit es (deposit ds buf) :=
  List.foldl_append

@[simp] theorem length_deposit (ds : List (Nat × R)) (buf : Buffer R) :
    (deposit ds buf).length = buf.length := by
  induction ds generalizing buf with
  | nil => rfl
  | cons d ds ih => rw [deposit_cons, ih, List.length_modify]

/-- The deposits behind the first `k` entries. -/
def behind (k : Nat) (ds : List (Nat × R)) : List (Nat × R) := ds.map fun d => (k + d.1, d.2)

/-- Deposits behind the front part of a buffer leave the front alone. -/
theorem deposit_behind (ds : List (Nat × R)) (front buf : Buffer R) :
    deposit (behind front.length ds) (front ++ buf) = front ++ deposit ds buf := by
  induction ds generalizing buf with
  | nil => rfl
  | cons d ds ih =>
    have hmodify : (front ++ buf).modify (front.length + d.1) (· + d.2) =
        front ++ buf.modify d.1 (· + d.2) := by
      refine List.ext_getElem? fun j => ?_
      simp only [List.getElem?_modify, List.getElem?_append]
      by_cases hj : j < front.length
      · simp [hj, show front.length + d.1 ≠ j by omega]
      · simp [hj, show front.length + d.1 = j ↔ d.1 = j - front.length by omega]
    rw [behind, List.map_cons, deposit_cons, deposit_cons, hmodify]
    exact ih _

/-- Deposits in the front part of a buffer leave the rest alone. -/
theorem deposit_front {ds : List (Nat × R)} {buf : Buffer R} (h : ∀ d ∈ ds, d.1 < buf.length)
    (rest : Buffer R) : deposit ds (buf ++ rest) = deposit ds buf ++ rest := by
  induction ds generalizing buf with
  | nil => rfl
  | cons d ds ih =>
    obtain ⟨hd, hds⟩ := List.forall_mem_cons.1 h
    have hmodify : (buf ++ rest).modify d.1 (· + d.2) = buf.modify d.1 (· + d.2) ++ rest := by
      refine List.ext_getElem? fun j => ?_
      simp only [List.getElem?_modify, List.getElem?_append, List.length_modify]
      by_cases hj : j < buf.length
      · simp [hj]
      · simp [hj, show d.1 ≠ j by omega]
    rw [deposit_cons, deposit_cons, hmodify]
    exact ih (by simpa using hds)

/-- Entries without deposits are left alone. -/
theorem getElem?_deposit_of_ne {ds : List (Nat × R)} {j : Nat} (h : ∀ d ∈ ds, d.1 ≠ j)
    (buf : Buffer R) : (deposit ds buf)[j]? = buf[j]? := by
  induction ds generalizing buf with
  | nil => rfl
  | cons d ds ih =>
    obtain ⟨hd, hds⟩ := List.forall_mem_cons.1 h
    simp only [deposit_cons, ih hds, List.getElem?_modify, if_neg hd, id_map']

/-- **What a buffer held and what the deposits leave in zeros add up.** -/
theorem deposit_eq_zipWith (ds : List (Nat × ℝ)) (buf : Buffer ℝ) :
    deposit ds buf = List.zipWith (· + ·) buf (deposit ds (List.replicate buf.length 0)) := by
  -- from any two buffers of one length
  have hadd : ∀ xs ys : Buffer ℝ, xs.length = ys.length →
      deposit ds (List.zipWith (· + ·) xs ys) = List.zipWith (· + ·) xs (deposit ds ys) := by
    induction ds with
    | nil => exact fun _ _ _ => rfl
    | cons d ds ih =>
      intro xs ys hlen
      rw [deposit_cons, deposit_cons, ← ih xs _ (by rw [List.length_modify, hlen])]
      refine congrArg (deposit ds) (List.ext_getElem (by simp) fun j _ _ => ?_)
      simp only [List.getElem_modify, List.getElem_zipWith]
      split
      · exact add_assoc _ _ _
      · rfl
  have hzero : List.zipWith (· + ·) buf (List.replicate buf.length (0 : ℝ)) = buf :=
    List.ext_getElem (by simp) fun j _ _ => by simp
  rw [← hadd buf _ (by simp), hzero]

/-! ## Routines that make deposits -/

/-- A routine that makes deposits at entries in `S`, the same ones in every buffer of at least
`need` entries, unless it fails on every buffer. -/
def AddsTo (need : Nat) (S : Nat → Prop) (f : Buffer R → Except Breach (Buffer R)) : Prop :=
  ∀ buf₀ out₀, f buf₀ = .ok out₀ → ∃ ds : List (Nat × R), (∀ d ∈ ds, S d.1) ∧
    ∀ buf : Buffer R, need ≤ buf.length → f buf = .ok (deposit ds buf)

namespace AddsTo

variable {need : Nat} {S : Nat → Prop} {f g : Buffer R → Except Breach (Buffer R)}

theorem of_error {b : Breach} (h : ∀ buf, f buf = .error b) : AddsTo need S f :=
  fun buf₀ out₀ h₀ => by
    rw [h] at h₀
    cases h₀

/-- A routine that leaves the buffer alone. -/
theorem id : AddsTo need S fun buf : Buffer R => .ok buf :=
  fun _ _ _ => ⟨[], nofun, fun _ _ => rfl⟩

theorem mono {T : Nat → Prop} (hST : ∀ j, S j → T j) (hf : AddsTo need S f) :
    AddsTo need T f := by
  intro buf₀ out₀ h₀
  obtain ⟨ds, hds, hrun⟩ := hf buf₀ out₀ h₀
  exact ⟨ds, fun d hd => hST _ (hds d hd), hrun⟩

/-- Adding to one entry. -/
theorem addAt {i : Nat} (hi : S i) (hneed : i < need) (a : R) :
    AddsTo need S (Polyfield.addAt i a) := by
  intro _ _ _
  refine ⟨[(i, a)], by simpa using hi, fun buf hbuf => ?_⟩
  have hlt : i < buf.length := by omega
  rw [Polyfield.addAt, fetch_of_lt hlt, ok_bind, pure_eq_ok, deposit_cons, deposit_nil,
    List.modify_eq_set_getElem?]
  simp [hlt]

/-- Deposits keep the length of a buffer. -/
theorem length_eq (hf : AddsTo need S f) {buf out : Buffer R} (hbuf : need ≤ buf.length)
    (h : f buf = .ok out) : out.length = buf.length := by
  obtain ⟨ds, -, hrun⟩ := hf _ _ h
  obtain rfl := Except.ok.inj (h.symm.trans (hrun buf hbuf))
  exact length_deposit ds buf

/-- One routine after the other. -/
theorem bind (hf : AddsTo need S f) (hg : AddsTo need S g) :
    AddsTo need S fun buf => f buf >>= g := by
  intro buf₀ out₀ h₀
  obtain ⟨mid₀, hmid, hout⟩ := bind_eq_ok.1 h₀
  obtain ⟨ds, hds, hfirst⟩ := hf _ _ hmid
  obtain ⟨es, hes, hthen⟩ := hg _ _ hout
  refine ⟨ds ++ es, List.forall_mem_append.2 ⟨hds, hes⟩, fun buf hbuf => ?_⟩
  rw [deposit_append, ← hthen _ (by rwa [length_deposit])]
  exact bind_of_ok (hfirst buf hbuf) g

/-- A step that does not look at the buffer, and then a routine. -/
theorem read {α : Type} {x : Except Breach α} {k : α → Buffer R → Except Breach (Buffer R)}
    (h : ∀ a, x = .ok a → AddsTo need S (k a)) :
    AddsTo need S fun buf => x >>= fun a => k a buf := by
  cases hx : x with
  | error b => exact of_error fun _ => rfl
  | ok a => exact h a hx

/-- A check of the length that passes on all buffers that are long enough. -/
theorem check {b : Breach} {len : Nat} (hlen : len ≤ need) (hf : AddsTo need S f) :
    AddsTo need S fun buf => if buf.length < len then .error b else f buf := by
  intro buf₀ out₀ h₀
  obtain ⟨ds, hds, hrun⟩ := hf buf₀ out₀ (ite_error_eq_ok.1 h₀).2
  exact ⟨ds, hds, fun buf hbuf => (if_neg (by omega)).trans (hrun buf hbuf)⟩

/-- **A loop makes the deposits of its steps.** -/
theorem foldlM {ι : Type} {step : Buffer R → ι → Except Breach (Buffer R)} {xs : List ι}
    (h : ∀ x ∈ xs, AddsTo need S (step · x)) : AddsTo need S (xs.foldlM step ·) := by
  induction xs with
  | nil => exact id
  | cons x xs ih =>
    exact (h x List.mem_cons_self).bind (ih fun y hy => h y (List.mem_cons_of_mem x hy))

/-- Adding a multiple of some values, entry by entry. -/
theorem addScaled (a : R) {vs : List R} (hvs : ∀ j < vs.length, S j) :
    AddsTo need S fun buf => .ok (Polyfield.addScaled a vs buf) := by
  have hdeposits : ∀ buf : Buffer R, Polyfield.addScaled a vs buf =
      deposit (vs.zipIdx.map fun v => (v.2, a * v.1)) buf := by
    clear hvs
    induction vs with
    | nil => exact fun buf => by cases buf <;> rfl
    | cons v vs ih =>
      intro buf
      rw [List.zipIdx_cons, List.map_cons, deposit_cons]
      have hshift : (vs.zipIdx 1).map (fun v => (v.2, a * v.1)) =
          behind 1 (vs.zipIdx.map fun v => (v.2, a * v.1)) := by
        rw [List.zipIdx_eq_map_add, behind, List.map_map, List.map_map]
        exact List.map_congr_left fun _ _ => by simp
      rw [Nat.zero_add, hshift]
      cases buf with
      | nil =>
        refine (List.length_eq_zero_iff.1 ?_).symm
        simp
      | cons o os =>
        rw [Polyfield.addScaled, ih os]
        exact (deposit_behind _ [o + a * v] os).symm
  intro _ _ _
  refine ⟨_, fun d hd => ?_, fun buf _ => congrArg Except.ok (hdeposits buf)⟩
  obtain ⟨v, hv, rfl⟩ := List.mem_map.1 hd
  exact hvs _ (by simpa using List.snd_lt_of_mem_zipIdx hv)

/-- **Deposits in a slot.** -/
theorem updateSlot {start len : Nat} (hS : ∀ j, S j → j < len) (hneed : start + len ≤ need)
    (hf : AddsTo len S f) :
    AddsTo need (fun j => start ≤ j ∧ S (j - start)) (Polyfield.updateSlot start len f) := by
  intro buf₀ out₀ h₀
  obtain ⟨-, slot₀, hslot₀, -⟩ := updateSlot_eq_ok.1 h₀
  obtain ⟨ds, hds, hrun⟩ := hf _ _ hslot₀
  refine ⟨behind start ds, fun d hd => ?_, fun buf hbuf => ?_⟩
  · obtain ⟨e, he, rfl⟩ := List.mem_map.1 hd
    exact ⟨Nat.le_add_right _ _, by simpa using hds e he⟩
  · have hslot : ((buf.drop start).take len).length = len := by
      rw [List.length_take, List.length_drop]
      omega
    have hfront : (buf.take start).length = start := by
      rw [List.length_take]
      omega
    refine updateSlot_eq_ok.2 ⟨by omega, _, hrun _ hslot.ge, ?_⟩
    have hsplit : buf =
        buf.take start ++ ((buf.drop start).take len ++ buf.drop (start + len)) := by
      rw [← List.drop_drop, List.take_append_drop, List.take_append_drop]
    conv_lhs => rw [hsplit]
    have hbehind := deposit_behind ds (buf.take start)
      ((buf.drop start).take len ++ buf.drop (start + len))
    rw [hfront] at hbehind
    rw [hbehind, deposit_front (fun d hd => (hS _ (hds d hd)).trans_eq hslot.symm),
      List.append_assoc]

end AddsTo

end Polyfield
