import Mathlib.Data.List.Forall2
import Polyfield.Buffer

/-!
# Steps that succeed

When a chain of steps, or a loop over a list, has a result, and which.

* `bind_eq_ok` : two steps succeed if the first does, and the second on its result;
* `mapM_eq_ok` : a loop that collects results succeeds if each of its steps does;
* `foldlM_eq_foldl` : a loop whose steps all succeed is a fold;
* `foldlM_table_eq_ok` : a loop that changes one entry of a table in each step.
-/

namespace Polyfield

variable {ε α β σ : Type}

theorem bind_eq_ok {x : Except ε α} {f : α → Except ε β} {b : β} :
    (x >>= f) = .ok b ↔ ∃ a, x = .ok a ∧ f a = .ok b := by
  cases x <;> simp [bind, Except.bind]

@[simp] theorem ok_bind (a : α) (f : α → Except ε β) : (Except.ok a >>= f) = f a := rfl

@[simp] theorem error_bind (e : ε) (f : α → Except ε β) :
    ((Except.error e : Except ε α) >>= f) = .error e := rfl

theorem bind_of_ok {x : Except ε α} {a : α} (h : x = .ok a) (f : α → Except ε β) :
    (x >>= f) = f a := by
  rw [h, ok_bind]

theorem bind_of_error {x : Except ε α} {e : ε} (h : x = .error e) (f : α → Except ε β) :
    (x >>= f) = .error e := by
  rw [h, error_bind]

/-- Steps that agree on a result that is there agree. -/
theorem bind_congr_of_ok {x : Except ε α} {f g : α → Except ε β}
    (h : ∀ a, x = .ok a → f a = g a) : (x >>= f) = (x >>= g) := by
  cases x with
  | error e => rfl
  | ok a => exact h a rfl

@[simp] theorem pure_eq_ok (a : α) : (pure a : Except ε α) = .ok a := rfl

@[simp] theorem throw_eq_error (e : ε) : (throw e : Except ε α) = .error e := rfl

/-- A step that cannot refuse, among steps that can. -/
@[simp] theorem liftM_ok (a : α) :
    (liftM (Except.ok a : Except Breach α) : Except Fault α) = .ok a := rfl

/-- A check in front of a step has no result. -/
theorem unit_bind_eq_ok {x : Except ε Unit} {f : Unit → Except ε β} {b : β} :
    (x >>= f) = .ok b ↔ x = .ok () ∧ f () = .ok b := by
  cases x <;> simp [bind, Except.bind]

/-- Steps that succeed alike fail alike. -/
theorem exists_error_iff {x y : Except ε α} (h : ∀ a, x = .ok a ↔ y = .ok a) :
    (∃ e, x = .error e) ↔ ∃ e, y = .error e := by
  cases x with
  | ok a => rw [(h a).1 rfl]
  | error e =>
    cases y with
    | ok a => exact absurd ((h a).2 rfl) nofun
    | error e' => exact ⟨fun _ => ⟨e', rfl⟩, fun _ => ⟨e, rfl⟩⟩

/-- A step that is left out with an error. -/
theorem ite_error_eq_ok {p : Prop} [Decidable p] {e : ε} {x : Except ε α} {a : α} :
    (if p then .error e else x) = .ok a ↔ ¬p ∧ x = .ok a := by
  by_cases h : p <;> simp [h]

theorem forM_eq_ok {f : α → Except ε Unit} {xs : List α} :
    xs.forM f = .ok () ↔ ∀ x ∈ xs, f x = .ok () := by
  induction xs with
  | nil => simp
  | cons x xs ih =>
    show (f x >>= fun _ => xs.forM f) = .ok () ↔ _
    rw [bind_eq_ok, List.forall_mem_cons, ← ih]
    exact ⟨fun ⟨_, h, hs⟩ => ⟨h, hs⟩, fun ⟨h, hs⟩ => ⟨(), h, hs⟩⟩

theorem mapM_eq_ok {f : α → Except ε β} {xs : List α} {ys : List β} :
    xs.mapM f = .ok ys ↔ List.Forall₂ (fun x y => f x = .ok y) xs ys := by
  induction xs generalizing ys with
  | nil => simp [eq_comm]
  | cons x xs ih =>
    rw [List.mapM_cons, bind_eq_ok, List.forall₂_cons_left_iff]
    simp only [bind_eq_ok, ih, pure_eq_ok, Except.ok.injEq]
    exact ⟨fun ⟨y, hy, ys', hys, h⟩ => ⟨y, ys', hy, hys, h.symm⟩,
      fun ⟨y, ys', hy, hys, h⟩ => ⟨y, hy, ys', hys, h.symm⟩⟩

/-- A loop whose steps all succeed collects their results. -/
theorem mapM_eq_map {f : α → Except ε β} {g : α → β} {xs : List α}
    (h : ∀ x ∈ xs, f x = .ok (g x)) : xs.mapM f = .ok (xs.map g) :=
  mapM_eq_ok.2 (List.forall₂_map_right_iff.2 (List.forall₂_same.2 h))

/-- A loop over positions is a loop over the entries. -/
theorem mapM_range_eq_map {xs : List α} {F : Nat → Except ε β} {g : α → β}
    (h : ∀ k x, xs[k]? = some x → F k = .ok (g x)) :
    (List.range xs.length).mapM F = .ok (xs.map g) := by
  refine mapM_eq_ok.2 (List.forall₂_iff_get.2 ⟨by simp, fun k hk _ => ?_⟩)
  have hlt : k < xs.length := by simpa using hk
  simpa using h k xs[k] (List.getElem?_eq_getElem hlt)

theorem length_of_mapM_eq_ok {f : α → Except ε β} {xs : List α} {ys : List β}
    (h : xs.mapM f = .ok ys) : ys.length = xs.length :=
  (mapM_eq_ok.1 h).length_eq.symm

theorem getElem_of_mapM_eq_ok {f : α → Except ε β} {xs : List α} {ys : List β}
    (h : xs.mapM f = .ok ys) {i : Nat} (hx : i < xs.length) (hy : i < ys.length) :
    f xs[i] = .ok ys[i] :=
  (mapM_eq_ok.1 h).get hx hy

/-- The results of a loop are results of its steps. -/
theorem exists_of_mem_mapM {f : α → Except ε β} {xs : List α} {ys : List β}
    (h : xs.mapM f = .ok ys) {y : β} (hy : y ∈ ys) : ∃ x ∈ xs, f x = .ok y := by
  obtain ⟨i, hi, rfl⟩ := List.getElem_of_mem hy
  have hx : i < xs.length := by rwa [← length_of_mapM_eq_ok h]
  exact ⟨xs[i], List.getElem_mem hx, getElem_of_mapM_eq_ok h hx hi⟩

/-- The steps of a loop that has a result succeed. -/
theorem exists_of_mapM_eq_ok {f : α → Except ε β} {xs : List α} {ys : List β}
    (h : xs.mapM f = .ok ys) {x : α} (hx : x ∈ xs) : ∃ y, f x = .ok y := by
  obtain ⟨i, hi, rfl⟩ := List.getElem_of_mem hx
  exact ⟨_, getElem_of_mapM_eq_ok h hi (by rwa [length_of_mapM_eq_ok h])⟩

/-- Loops whose steps agree have the same result. -/
theorem mapM_congr {f g : α → Except ε β} {xs : List α} (h : ∀ x ∈ xs, f x = g x) :
    xs.mapM f = xs.mapM g := by
  induction xs with
  | nil => rfl
  | cons x xs ih =>
    rw [List.mapM_cons, List.mapM_cons, h x List.mem_cons_self,
      ih fun y hy => h y (List.mem_cons_of_mem x hy)]

/-- A loop whose steps can only fail in one way fails in that way if one of them does. -/
theorem mapM_eq_error {f : α → Except ε β} {e : ε} {xs : List α}
    (h : ∀ x ∈ xs, (∃ y, f x = .ok y) ∨ f x = .error e) (hfail : ∃ x ∈ xs, f x = .error e) :
    xs.mapM f = .error e := by
  induction xs with
  | nil =>
    obtain ⟨x, hx, -⟩ := hfail
    simp at hx
  | cons x xs ih =>
    rw [List.mapM_cons]
    rcases h x List.mem_cons_self with ⟨y, hy⟩ | hx
    · obtain ⟨z, hz, hze⟩ := hfail
      have hmem : z ∈ xs := (List.mem_cons.1 hz).resolve_left fun heq => by
        rw [heq, hy] at hze
        cases hze
      rw [hy, ok_bind, ih (fun w hw => h w (List.mem_cons_of_mem x hw)) ⟨z, hmem, hze⟩, error_bind]
    · rw [hx, error_bind]

/-- A loop whose steps all succeed has a result. -/
theorem exists_mapM_eq_ok {f : α → Except ε β} {xs : List α} (h : ∀ x ∈ xs, ∃ y, f x = .ok y) :
    ∃ ys, xs.mapM f = .ok ys := by
  induction xs with
  | nil => exact ⟨[], rfl⟩
  | cons x xs ih =>
    obtain ⟨y, hy⟩ := h x List.mem_cons_self
    obtain ⟨ys, hys⟩ := ih fun z hz => h z (List.mem_cons_of_mem x hz)
    exact ⟨y :: ys, by rw [List.mapM_cons, hy, ok_bind, hys]; rfl⟩

/-- A loop whose steps all succeed is a fold. -/
theorem foldlM_eq_foldl {f : σ → α → Except ε σ} {g : σ → α → σ} {xs : List α}
    (h : ∀ s, ∀ x ∈ xs, f s x = .ok (g s x)) (s : σ) : xs.foldlM f s = .ok (xs.foldl g s) := by
  induction xs generalizing s with
  | nil => rfl
  | cons x xs ih =>
    rw [List.foldlM_cons, h s x List.mem_cons_self, ok_bind, List.foldl_cons]
    exact ih (fun t y hy => h t y (List.mem_cons_of_mem x hy)) (g s x)

/-- A loop whose state is known from the elements it is done with. -/
theorem foldlM_eq_ok_of_done {f : σ → α → Except ε σ} (g : List α → σ) {xs : List α}
    (h : ∀ done, ∀ x ∈ xs, f (g done) x = .ok (g (done ++ [x]))) (done : List α) :
    xs.foldlM f (g done) = .ok (g (done ++ xs)) := by
  induction xs generalizing done with
  | nil => rw [List.append_nil, List.foldlM_nil, pure_eq_ok]
  | cons x xs ih =>
    rw [List.foldlM_cons, h done x List.mem_cons_self, ok_bind,
      ih (fun done y hy => h done y (List.mem_cons_of_mem x hy)), List.append_assoc,
      List.singleton_append]

/-- A loop has a result if each of its steps keeps a property with which all of them do. -/
theorem exists_foldlM_eq_ok {P : σ → Prop} {f : σ → α → Except ε σ} {xs : List α}
    (h : ∀ s, ∀ x ∈ xs, P s → ∃ t, f s x = .ok t ∧ P t) {s : σ} (hs : P s) :
    ∃ t, xs.foldlM f s = .ok t ∧ P t := by
  induction xs generalizing s with
  | nil => exact ⟨s, rfl, hs⟩
  | cons x xs ih =>
    obtain ⟨t, ht, hPt⟩ := h s x List.mem_cons_self hs
    rw [List.foldlM_cons, ht, ok_bind]
    exact ih (fun u y hy => h u y (List.mem_cons_of_mem x hy)) hPt

/-- A loop keeps what each of its steps keeps. -/
theorem of_foldlM_eq_ok {P : σ → Prop} {f : σ → α → Except ε σ} {xs : List α}
    (h : ∀ s, ∀ x ∈ xs, ∀ t, P s → f s x = .ok t → P t) {s t : σ} (hs : P s)
    (ht : xs.foldlM f s = .ok t) : P t := by
  induction xs generalizing s with
  | nil =>
    cases ht
    exact hs
  | cons x xs ih =>
    rw [List.foldlM_cons, bind_eq_ok] at ht
    obtain ⟨u, hu, ht⟩ := ht
    exact ih (fun v y hy => h v y (List.mem_cons_of_mem x hy))
      (h s x List.mem_cons_self u hs hu) ht

/-- Loops whose steps agree have the same result. -/
theorem foldlM_congr {f g : σ → α → Except ε σ} {xs : List α}
    (h : ∀ s, ∀ x ∈ xs, f s x = g s x) (s : σ) : xs.foldlM f s = xs.foldlM g s := by
  induction xs generalizing s with
  | nil => rfl
  | cons x xs ih =>
    rw [List.foldlM_cons, List.foldlM_cons, h s x List.mem_cons_self]
    exact congrArg (g s x >>= ·) (funext fun t => ih (fun t y hy =>
      h t y (List.mem_cons_of_mem x hy)) t)

/-- A loop over two states, the first of which never fails, is two loops. -/
theorem foldlM_prod {τ : Type} (f : σ → α → σ) (g : τ → α → Except ε τ) (xs : List α) (s : σ)
    (t : τ) : xs.foldlM (fun (p : σ × τ) x => do return (f p.1 x, ← g p.2 x)) (s, t) =
      (do return (xs.foldl f s, ← xs.foldlM g t)) := by
  induction xs generalizing s t with
  | nil => rfl
  | cons x xs ih =>
    rw [List.foldlM_cons, List.foldlM_cons, List.foldl_cons]
    cases g t x with
    | error e => rfl
    | ok u => exact ih (f s x) u

/-! ## Reading -/

/-- Reading inside a list. -/
theorem fetch_getD {xs : List α} {i : Nat} (h : i < xs.length) (d : α) :
    fetch xs i = .ok (xs.getD i d) := by
  rw [fetch_of_lt h]
  simp [h]

theorem lt_of_fetch_eq_ok {xs : List α} {i : Nat} {a : α} (h : fetch xs i = .ok a) :
    i < xs.length :=
  (List.getElem?_eq_some_iff.1 (fetch_eq_ok.1 h)).1

theorem getD_of_fetch_eq_ok {xs : List α} {i : Nat} {a : α} (h : fetch xs i = .ok a) (d : α) :
    xs.getD i d = a :=
  Except.ok.inj ((fetch_getD (lt_of_fetch_eq_ok h) d).symm.trans h)

theorem slice_eq_ok {xs ys : List α} {start stop : Nat} :
    slice xs start stop = .ok ys ↔
      start ≤ stop ∧ stop ≤ xs.length ∧ ys = (xs.drop start).take (stop - start) := by
  unfold slice
  split <;> rename_i h
  · simp [h, eq_comm]
  · simp only [reduceCtorEq, false_iff]
    exact fun h' => h ⟨h'.1, h'.2.1⟩

/-! ## Tables of functions -/

theorem fetch_map_range {n i : Nat} (f : Nat → α) (hi : i < n) :
    fetch ((List.range n).map f) i = .ok (f i) := by
  rw [fetch_eq_ok]
  simp [hi]

/-- Changing a function at one place is changing one entry of its table. -/
theorem set_map_range (n : Nat) {i : Nat} {f g : Nat → α} (h : ∀ j, j ≠ i → g j = f j) :
    ((List.range n).map f).set i (g i) = (List.range n).map g := by
  refine List.ext_getElem (by simp) fun j hj _ => ?_
  by_cases hji : i = j
  · subst hji
    simp
  · simp [hji, h j (Ne.symm hji)]

end Polyfield
