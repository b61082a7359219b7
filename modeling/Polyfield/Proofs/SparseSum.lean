import Mathlib.Algebra.BigOperators.Group.Finset.Piecewise
import Mathlib.Algebra.BigOperators.Group.List.Basic
import Mathlib.Data.List.Sort
import Polyfield.Mesh.SparseRow

/-!
# Sums over sparse rows

A row has the numbers of its entries in increasing order and sums up the values at each of them.
There is one such row only (`SparseRow.Gathers.eq_gather`), whatever the order in which it is
made.  It groups its entries by number, so a sum over the row of something additive in the values
is the sum over the entries (`SparseRow.sum_map_gather`).

* `SparseRow.nodup_sortedColumns`, `SparseRow.sorted_sortedColumns` : the numbers of a row
  increase;
* `SparseRow.gather_perm` : a row does not depend on the order of its entries if the sums do not;
* `SparseRow.sum_map_columns` : the grouped sum over any numbers that hold those of the entries;
* `SparseRow.sortedColumns_perm` : the numbers of a row are those of its entries if these are
  distinct;
* `SparseRow.lookup_gather`, `map_lookup_zip` : the value of a row at a number.
-/

namespace Polyfield

/-- Two sums can be exchanged. -/
theorem sum_map_sum_comm {ι κ M : Type} [AddCommMonoid M] (xs : List ι) (ys : List κ)
    (f : ι → κ → M) : (xs.map fun i => (ys.map (f i)).sum).sum =
      (ys.map fun j => (xs.map fun i => f i j).sum).sum := by
  induction xs with
  | nil => simp
  | cons x xs ih => simp only [List.map_cons, List.sum_cons, List.sum_map_add, ih]

/-- The values of distinct keys, looked up one by one. -/
theorem map_lookup_zip {α β : Type} [BEq α] [LawfulBEq α] {keys : List α} {values : List β}
    (hnd : keys.Nodup) (hlen : keys.length = values.length) (d : β) :
    keys.map (fun k => ((keys.zip values).lookup k).getD d) = values := by
  induction keys generalizing values with
  | nil => simpa [eq_comm] using hlen
  | cons k keys ih =>
    cases values with
    | nil => simp at hlen
    | cons v values =>
      obtain ⟨hk, hnd⟩ := List.nodup_cons.1 hnd
      have hrest : keys.map (fun j => (((k :: keys).zip (v :: values)).lookup j).getD d) =
          keys.map fun j => ((keys.zip values).lookup j).getD d := by
        refine List.map_congr_left fun j hj => ?_
        have hne : (j == k) = false := beq_eq_false_iff_ne.2 fun h => hk (h ▸ hj)
        rw [List.zip_cons_cons, List.lookup_cons, hne]
      rw [List.map_cons, hrest, ih hnd (by simpa using hlen)]
      simp

namespace SparseRow

variable {V M : Type}

/-! ## The numbers of a row -/

theorem nodup_sortedColumns (entries : List (Nat × V)) : (sortedColumns entries).Nodup := by
  rw [sortedColumns, (List.mergeSort_perm _ _).nodup_iff]
  simpa using nodup_firstSeen id (entries.map Prod.fst)

theorem sorted_sortedColumns (entries : List (Nat × V)) :
    (sortedColumns entries).Pairwise (· < ·) := by
  have hle : (sortedColumns entries).Pairwise (· ≤ ·) :=
    (List.pairwise_mergeSort (by simp; omega) (by simp; omega) _).imp (by simp)
  exact (hle.and (nodup_sortedColumns entries)).imp fun h => by omega

@[simp] theorem gather_nil (sum : List V → V) : gather sum [] = [] := by
  simp [gather, sortedColumns, firstSeen, firstSeenAfter]

@[simp] theorem valuesAt_nil (j : Nat) : valuesAt j ([] : List (Nat × V)) = [] := rfl

theorem valuesAt_cons (j : Nat) (e : Nat × V) (es : List (Nat × V)) :
    valuesAt j (e :: es) = if e.1 = j then e.2 :: valuesAt j es else valuesAt j es := by
  by_cases h : e.1 = j <;> simp [valuesAt, h]

theorem valuesAt_eq_nil {j : Nat} {entries : List (Nat × V)} (h : j ∉ entries.map Prod.fst) :
    valuesAt j entries = [] := by
  rw [valuesAt, List.map_eq_nil_iff, List.filter_eq_nil_iff]
  intro e he hj
  exact h (List.mem_map.2 ⟨e, he, by simpa using hj⟩)

/-- An entry with a number of its own is all that a row holds at the number. -/
theorem valuesAt_eq_singleton {entries : List (Nat × V)} (hnd : (entries.map Prod.fst).Nodup)
    {e : Nat × V} (he : e ∈ entries) : valuesAt e.1 entries = [e.2] := by
  induction entries with
  | nil => simp at he
  | cons a as ih =>
    rw [List.map_cons, List.nodup_cons] at hnd
    rw [valuesAt_cons]
    rcases List.mem_cons.1 he with rfl | he
    · rw [if_pos rfl, valuesAt_eq_nil hnd.1]
    · have hne : a.1 ≠ e.1 := fun h => hnd.1 (h ▸ List.mem_map_of_mem he)
      rw [if_neg hne, ih hnd.2 he]

/-- The values of entries whose value depends on their number. -/
theorem valuesAt_map (g : Nat → V) (ids : List Nat) (j : Nat) :
    valuesAt j (ids.map fun i => (i, g i)) = List.replicate (ids.count j) (g j) := by
  induction ids with
  | nil => rw [List.map_nil, valuesAt_nil, List.count_nil, List.replicate_zero]
  | cons i is ih =>
    rw [List.map_cons, valuesAt_cons, ih, List.count_cons]
    by_cases hi : i = j
    · simp [hi, List.replicate_succ]
    · simp [hi]

/-! ## What a row is -/

/-- A row gathers some entries: it has their numbers, increasing and so each of them once, and at
each number the sum of the values that the entries have there. -/
structure Gathers (sum : List V → V) (entries : List (Nat × V)) (row : SparseRow V) : Prop where
  increasing : (columns row).Pairwise (· < ·)
  mem_columns : ∀ j, j ∈ columns row ↔ j ∈ entries.map Prod.fst
  value : ∀ e ∈ row, e.2 = sum (valuesAt e.1 entries)

theorem gathers_gather (sum : List V → V) (entries : List (Nat × V)) :
    Gathers sum entries (gather sum entries) where
  increasing := by
    rw [columns_gather]
    exact sorted_sortedColumns entries
  mem_columns j := by
    rw [columns_gather]
    exact mem_sortedColumns
  value e he := by
    obtain ⟨j, -, rfl⟩ := List.mem_map.1 he
    rfl

/-- **No other row gathers the entries.** -/
theorem Gathers.eq_gather {sum : List V → V} {entries : List (Nat × V)} {row : SparseRow V}
    (h : Gathers sum entries row) : row = gather sum entries := by
  have hcolumns : columns row = sortedColumns entries :=
    h.increasing.eq_of_mem_iff (sorted_sortedColumns entries) fun j =>
      (h.mem_columns j).trans mem_sortedColumns.symm
  have hrow : row = (columns row).map fun j => (j, sum (valuesAt j entries)) := by
    conv_lhs => rw [← row.map_id]
    rw [columns, List.map_map]
    exact List.map_congr_left fun e he => Prod.ext rfl (h.value e he)
  rw [hrow, hcolumns, gather]

/-- A row does not depend on the order of its entries if their sums do not. -/
theorem gather_perm {sum : List V → V} {es es' : List (Nat × V)} (h : es'.Perm es)
    (hsum : ∀ us vs, us.Perm vs → sum us = sum vs) : gather sum es' = gather sum es := by
  have hrow := gathers_gather sum es'
  exact Gathers.eq_gather
    { increasing := hrow.increasing
      mem_columns := fun j => (hrow.mem_columns j).trans (h.map Prod.fst).mem_iff
      value := fun e he => (hrow.value e he).trans (hsum _ _ (valuesAt_perm e.1 h)) }

/-! ## Sums -/

/-- **A sum over entries can be grouped by their numbers.** -/
theorem sum_map_columns [AddCommMonoid M] (φ : Nat → V → M) {cols : List Nat}
    (hnd : cols.Nodup) (entries : List (Nat × V)) (hcols : ∀ e ∈ entries, e.1 ∈ cols) :
    (cols.map fun j => ((valuesAt j entries).map (φ j)).sum).sum =
      (entries.map fun e => φ e.1 e.2).sum := by
  induction entries with
  | nil => simp
  | cons e es ih =>
    have hsplit : ∀ j, ((valuesAt j (e :: es)).map (φ j)).sum =
        (if e.1 = j then φ j e.2 else 0) + ((valuesAt j es).map (φ j)).sum := by
      intro j
      rw [valuesAt_cons]
      split <;> simp
    have hself : (cols.map fun j => if e.1 = j then φ j e.2 else 0).sum = φ e.1 e.2 := by
      rw [← List.sum_toFinset _ hnd, Finset.sum_ite_eq,
        if_pos (List.mem_toFinset.2 (hcols e List.mem_cons_self))]
    simp only [hsplit, List.sum_map_add, hself, List.map_cons, List.sum_cons]
    rw [ih fun a ha => hcols a (List.mem_cons_of_mem e ha)]

/-- **The sum over a row is the sum over its entries.** -/
theorem sum_map_gather [AddCommMonoid M] {sum : List V → V} (φ : Nat → V → M)
    (hφ : ∀ j vs, φ j (sum vs) = (vs.map (φ j)).sum) (entries : List (Nat × V)) :
    ((gather sum entries).map fun e => φ e.1 e.2).sum =
      (entries.map fun e => φ e.1 e.2).sum := by
  rw [gather, List.map_map,
    ← sum_map_columns φ (nodup_sortedColumns entries) entries
      fun e he => mem_sortedColumns.2 (List.mem_map_of_mem he)]
  exact congrArg List.sum (List.map_congr_left fun j _ => hφ j _)

/-! ## Rows of entries with distinct numbers -/

theorem sortedColumns_perm {entries : List (Nat × V)} (hnd : (entries.map Prod.fst).Nodup) :
    (sortedColumns entries).Perm (entries.map Prod.fst) :=
  (List.perm_ext_iff_of_nodup (nodup_sortedColumns entries) hnd).2 fun _ => mem_sortedColumns

/-! ## Values by number -/

/-- The value of a row at a number; outside the row, the sum of no values. -/
theorem lookup_gather (sum : List V → V) (entries : List (Nat × V)) (j : Nat) :
    ((gather sum entries).lookup j).getD (sum []) = sum (valuesAt j entries) := by
  have hlookup : ∀ cols : List Nat, (cols.map fun i => (i, sum (valuesAt i entries))).lookup j =
      if j ∈ cols then some (sum (valuesAt j entries)) else none := by
    intro cols
    induction cols with
    | nil => simp
    | cons i is ih =>
      rw [List.map_cons, List.lookup_cons, ih]
      by_cases h : j = i
      · simp [h]
      · simp [h, beq_eq_false_iff_ne.2 h]
  rw [gather, hlookup]
  by_cases h : j ∈ sortedColumns entries
  · simp [h]
  · rw [if_neg h, valuesAt_eq_nil fun hj => h (mem_sortedColumns.2 hj)]
    rfl

/-- A row all of whose entries have the same value. -/
theorem values_gather_of_forall {V : Type} {sum : List V → V} {entries : List (Nat × V)} {w : V}
    (h : ∀ e ∈ entries, e.2 = w) : values (gather sum entries) =
      (sortedColumns entries).map fun j =>
        sum (List.replicate ((entries.map Prod.fst).count j) w) := by
  rw [values, gather, List.map_map]
  refine List.map_congr_left fun j _ => congrArg sum (List.eq_replicate_iff.2 ⟨?_, ?_⟩)
  · rw [valuesAt, List.length_map, ← List.countP_eq_length_filter, List.count, List.countP_map]
    rfl
  · intro v hv
    obtain ⟨e, he, rfl⟩ := List.mem_map.1 hv
    exact h e (List.mem_of_mem_filter he)

@[simp] theorem zip_columns_values (row : SparseRow V) : (columns row).zip (values row) = row := by
  induction row with
  | nil => rfl
  | cons e es ih =>
    simp only [columns, values, List.map_cons, List.zip_cons_cons] at ih ⊢
    rw [ih]

end SparseRow

end Polyfield
