import Mathlib.Algebra.BigOperators.Group.List.Basic
import Mathlib.Data.List.Nodup
import Mathlib.Tactic.Abel
import Polyfield.Mesh.Loop

/-!
# Sides of a cyclic list

Sums over the sides of a cyclic list, and the edges of a loop.

* `cyclicPairs_append` : walks around from one entry can be put one after the other;
* `sum_cyclicPairs_telescope` : differences along the sides cancel;
* `getElem_cyclicPairs` : side `i` leads from entry `i` to the next entry, around the end;
* `nodup_map_ofSide` : a loop of at least three distinct vertices walks along every edge once.
-/

namespace Polyfield

variable {α M : Type}

/-! ## Ends of the sides -/

theorem map_fst_cyclicPairs (xs : List α) : (cyclicPairs xs).map Prod.fst = xs := by
  cases xs with
  | nil => rfl
  | cons a as => exact List.map_fst_zip (by simp)

theorem map_snd_cyclicPairs_perm (xs : List α) : ((cyclicPairs xs).map Prod.snd).Perm xs := by
  cases xs with
  | nil => rfl
  | cons a as =>
    rw [cyclicPairs, List.map_snd_zip (by simp)]
    exact List.perm_append_singleton a as

theorem fst_mem_of_mem_cyclicPairs {xs : List α} {s : α × α} (h : s ∈ cyclicPairs xs) :
    s.1 ∈ xs := by
  rw [← map_fst_cyclicPairs xs]
  exact List.mem_map_of_mem h

theorem snd_mem_of_mem_cyclicPairs {xs : List α} {s : α × α} (h : s ∈ cyclicPairs xs) :
    s.2 ∈ xs :=
  (map_snd_cyclicPairs_perm xs).mem_iff.1 (List.mem_map_of_mem h)

/-- Every entry is the start of a side. -/
theorem exists_side_of_mem {xs : List α} {a : α} (h : a ∈ xs) :
    ∃ b, (a, b) ∈ cyclicPairs xs := by
  rw [← map_fst_cyclicPairs xs] at h
  obtain ⟨⟨a', b⟩, hs, rfl⟩ := List.mem_map.1 h
  exact ⟨b, hs⟩

/-- Two walks around from one entry, one after the other, have the sides of both. -/
theorem cyclicPairs_append (a : α) (xs ys : List α) :
    cyclicPairs (a :: xs ++ a :: ys) = cyclicPairs (a :: xs) ++ cyclicPairs (a :: ys) := by
  have hnext : xs ++ a :: ys ++ [a] = (xs ++ [a]) ++ (ys ++ [a]) := by simp
  rw [List.cons_append, cyclicPairs, cyclicPairs, cyclicPairs, hnext, ← List.cons_append]
  exact List.zip_append (by simp)

/-- A walk around that is repeated has its sides as many times. -/
theorem cyclicPairs_flatten_replicate (a : α) (xs : List α) (k : Nat) :
    cyclicPairs (List.replicate k (a :: xs)).flatten =
      (List.replicate k (cyclicPairs (a :: xs))).flatten := by
  induction k with
  | zero => rfl
  | succ k ih =>
    cases k with
    | zero => simp
    | succ k =>
      rw [List.replicate_succ, List.flatten_cons, List.replicate_succ (a := cyclicPairs _),
        List.flatten_cons, ← ih, List.replicate_succ, List.flatten_cons, List.cons_append]
      exact cyclicPairs_append a xs _

/-- Every vertex of a loop is an end of two of its sides. -/
theorem Loop.ends_sides_perm (l : Loop) :
    ((cyclicPairs l).flatMap fun s => [(Edge.ofSide s).1, (Edge.ofSide s).2]).Perm (l ++ l) := by
  have hside : ∀ s : Nat × Nat, [(Edge.ofSide s).1, (Edge.ofSide s).2].Perm [s.1, s.2] := by
    intro s
    rcases le_total s.1 s.2 with h | h
    · simp [Edge.ofSide, h]
    · simpa [Edge.ofSide, h] using List.Perm.swap s.1 s.2 []
  have hsplit := List.flatMap_append_perm (cyclicPairs l) (fun s => [s.1]) (fun s => [s.2])
  rw [← List.map_eq_flatMap, ← List.map_eq_flatMap, map_fst_cyclicPairs] at hsplit
  exact (List.Perm.flatMap_left _ fun s _ => hside s).trans
    (hsplit.symm.trans ((map_snd_cyclicPairs_perm l).append_left l))

/-! ## Sums over the sides -/

/-- **Differences cancel around a cycle.** -/
theorem sum_cyclicPairs_telescope [AddCommGroup M] (h : α → M) (xs : List α) :
    ((cyclicPairs xs).map fun s => h s.2 - h s.1).sum = 0 := by
  have hsplit : ∀ ss : List (α × α), (ss.map fun s => h s.2 - h s.1).sum =
      ((ss.map Prod.snd).map h).sum - ((ss.map Prod.fst).map h).sum := by
    intro ss
    induction ss with
    | nil => simp
    | cons s ss ih =>
      simp only [List.map_cons, List.sum_cons, ih]
      abel
  rw [hsplit, map_fst_cyclicPairs, ((map_snd_cyclicPairs_perm xs).map h).sum_eq, sub_self]

/-- Two sums over the sides are equal if their terms differ by differences. -/
theorem sum_cyclicPairs_eq_of_telescope [AddCommGroup M] {xs : List α} {f g : α × α → M}
    (h : α → M) (hfg : ∀ s ∈ cyclicPairs xs, f s = g s + (h s.2 - h s.1)) :
    ((cyclicPairs xs).map f).sum = ((cyclicPairs xs).map g).sum := by
  rw [List.map_congr_left hfg, List.sum_map_add, sum_cyclicPairs_telescope, add_zero]

/-! ## The sides by position -/

theorem getElem_cyclicPairs {xs : List α} {i : Nat} (hs : i < (cyclicPairs xs).length)
    (h : i < xs.length) (hnext : (i + 1) % xs.length < xs.length) :
    (cyclicPairs xs)[i] = (xs[i], xs[(i + 1) % xs.length]) := by
  cases xs with
  | nil => simp at h
  | cons a as =>
    simp only [cyclicPairs, List.getElem_zip, Prod.mk.injEq, true_and]
    rw [List.length_cons] at h
    by_cases hi : i < as.length
    · rw [List.getElem_append_left hi]
      simp [Nat.mod_eq_of_lt (show i + 1 < as.length + 1 by omega)]
    · obtain rfl : i = as.length := by omega
      simp

/-- The ends of a side of distinct entries are distinct. -/
theorem fst_ne_snd_of_nodup {xs : List α} (hnd : xs.Nodup) (hlen : 2 ≤ xs.length)
    {s : α × α} (hs : s ∈ cyclicPairs xs) : s.1 ≠ s.2 := by
  obtain ⟨i, his, rfl⟩ := List.mem_iff_getElem.1 hs
  have hi : i < xs.length := by rwa [length_cyclicPairs] at his
  rw [getElem_cyclicPairs his hi (Nat.mod_lt _ (by omega)), Ne, hnd.getElem_inj_iff]
  intro h
  by_cases hlast : i + 1 = xs.length
  · rw [hlast, Nat.mod_self] at h
    omega
  · rw [Nat.mod_eq_of_lt (by omega)] at h
    omega

/-- No side of at least three distinct entries is another one walked backwards. -/
theorem swap_notMem_cyclicPairs {xs : List α} (hnd : xs.Nodup) (hlen : 3 ≤ xs.length)
    {s : α × α} (hs : s ∈ cyclicPairs xs) : s.swap ∉ cyclicPairs xs := by
  intro hswap
  obtain ⟨i, his, rfl⟩ := List.mem_iff_getElem.1 hs
  obtain ⟨j, hjs, hij⟩ := List.mem_iff_getElem.1 hswap
  have hi : i < xs.length := by rwa [length_cyclicPairs] at his
  have hj : j < xs.length := by rwa [length_cyclicPairs] at hjs
  have hnext : ∀ k, k % xs.length < xs.length := fun k => Nat.mod_lt _ (by omega)
  rw [getElem_cyclicPairs his hi (hnext _), getElem_cyclicPairs hjs hj (hnext _),
    Prod.swap_prod_mk, Prod.mk.injEq, hnd.getElem_inj_iff, hnd.getElem_inj_iff] at hij
  obtain ⟨hj', hi'⟩ := hij
  rcases Nat.lt_or_ge (i + 1) xs.length with h1 | h1
  · rw [Nat.mod_eq_of_lt h1] at hj'
    subst hj'
    rcases Nat.lt_or_ge (i + 1 + 1) xs.length with h2 | h2
    · rw [Nat.mod_eq_of_lt h2] at hi'
      omega
    · rw [show i + 1 + 1 = xs.length by omega, Nat.mod_self] at hi'
      omega
  · rw [show i + 1 = xs.length by omega, Nat.mod_self] at hj'
    subst hj'
    rw [Nat.mod_eq_of_lt (by omega)] at hi'
    omega

theorem nodup_cyclicPairs {xs : List α} (hnd : xs.Nodup) : (cyclicPairs xs).Nodup :=
  List.Nodup.of_map Prod.fst (by rwa [map_fst_cyclicPairs])

/-! ## Edges of a loop -/

theorem Edge.ofSide_eq_iff {s t : Nat × Nat} :
    Edge.ofSide s = Edge.ofSide t ↔ s = t ∨ s = t.swap := by
  obtain ⟨a, b⟩ := s
  obtain ⟨c, d⟩ := t
  simp only [Edge.ofSide, Prod.mk.injEq, Prod.swap_prod_mk]
  omega

/-- **A loop of at least three distinct vertices walks along every edge once.** -/
theorem nodup_map_ofSide {l : Loop} (hnd : l.Nodup) (hlen : 3 ≤ l.length) :
    ((cyclicPairs l).map Edge.ofSide).Nodup := by
  refine (nodup_cyclicPairs hnd).map_on ?_
  intro s hs t ht hst
  rcases Edge.ofSide_eq_iff.1 hst with h | h
  · exact h
  · exact absurd (h ▸ hs) (swap_notMem_cyclicPairs hnd hlen ht)

end Polyfield
