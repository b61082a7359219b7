import Polyfield.Mesh.Loop
import Polyfield.Mesh.SignSum
import Polyfield.Sorting.Introsort

/-!
# Sparse rows

The connectivity of a mesh is kept row by row: for one cell or face, the numbers of the entities
it touches in increasing order, each with a value.  `SparseRow.gather` makes a row from entries in
any order and sums up the values of entries with the same number.  It is the only row with
increasing numbers and these sums.

The sums of a row of signs are kept in bytes.  `SparseRow.signsFit` says whether all partial sums
fit, and `fitsByte_of_signsFit` that the sums do then.

Rows are made by a sort that may exchange entries with the same number.  The order in which it
leaves them is kept for signs only: it decides which partial sums come up, and so whether bytes can
hold them.  The sums themselves are the same in every order, up to rounding, and so `gather` adds
the values in the order of the entries.
-/

namespace Polyfield

/-- Numbers in increasing order, each with a value. -/
abbrev SparseRow (V : Type) := List (Nat × V)

namespace SparseRow

variable {V : Type}

/-- The distinct numbers of some entries, in increasing order. -/
def sortedColumns (entries : List (Nat × V)) : List Nat :=
  (firstSeen id (entries.map Prod.fst)).mergeSort

/-- The values of the entries with a number. -/
def valuesAt (j : Nat) (entries : List (Nat × V)) : List V :=
  (entries.filter (fun entry => entry.1 == j)).map Prod.snd

/-- The row of some entries: the values of each number are summed up, in the order of the
entries. -/
def gather (sum : List V → V) (entries : List (Nat × V)) : SparseRow V :=
  (sortedColumns entries).map fun j => (j, sum (valuesAt j entries))

/-- The numbers of a row. -/
def columns (row : SparseRow V) : List Nat := row.map Prod.fst

/-- The values of a row. -/
def values (row : SparseRow V) : List V := row.map Prod.snd

@[simp] theorem columns_gather (sum : List V → V) (entries : List (Nat × V)) :
    columns (gather sum entries) = sortedColumns entries := by
  simp [columns, gather, Function.comp_def]

@[simp] theorem length_values (row : SparseRow V) :
    (values row).length = (columns row).length := by
  simp [columns, values]

theorem mem_sortedColumns {j : Nat} {entries : List (Nat × V)} :
    j ∈ sortedColumns entries ↔ j ∈ entries.map Prod.fst := by
  rw [sortedColumns, List.mem_mergeSort]
  refine ⟨mem_of_mem_firstSeen, fun h => ?_⟩
  have : id j ∈ (firstSeen id (entries.map Prod.fst)).map id := key_mem_firstSeen h
  simpa using this

theorem valuesAt_perm (j : Nat) {entries others : List (Nat × V)} (h : entries.Perm others) :
    (valuesAt j entries).Perm (valuesAt j others) :=
  (h.filter _).map _

/-! ## Rows of signs -/

/-- Whether bytes can hold the sums of a row of signs.  A row sorts its entries by number before
it adds up the signs of each number, and the sort decides in which order they come.  This order
has to be the one of the sort, for signs whose sum fits may have partial sums that do not.  Up to
127 signs fit in any order. -/
def signsFit (entries : List (Nat × Int)) : Bool :=
  entries.length ≤ 127 ||
    let sorted := Sorting.introsort Prod.fst entries
    (sortedColumns sorted).all fun j => (signTotal? (valuesAt j sorted)).isSome

/-- Where the partial sums fit into bytes, the sums of the row do. -/
theorem fitsByte_of_signsFit {entries : List (Nat × Int)}
    (hsigns : ∀ e ∈ entries, e.2 = 1 ∨ e.2 = -1) (h : signsFit entries = true) {s : Int}
    (hs : s ∈ values (gather signTotal entries)) : fitsByte s = true := by
  simp only [values, gather, List.map_map, List.mem_map] at hs
  obtain ⟨j, hj, rfl⟩ := hs
  rw [Function.comp_apply]
  rcases Bool.or_eq_true_iff.1 h with hshort | hfit
  · have hlen : (valuesAt j entries).length ≤ entries.length := by
      simpa [valuesAt] using List.length_filter_le _ entries
    refine fitsByte_signTotal (fun x hx => ?_) (Nat.le_trans hlen (by simpa using hshort))
    obtain ⟨e, he, rfl⟩ := List.mem_map.1 hx
    exact hsigns e (List.mem_filter.1 he).1
  · have hperm := Sorting.introsort_perm Prod.fst entries
    have hcolumn := List.all_eq_true.1 hfit j
      (mem_sortedColumns.2 ((hperm.map Prod.fst).mem_iff.2 (mem_sortedColumns.1 hj)))
    obtain ⟨t, ht⟩ := Option.isSome_iff_exists.1 hcolumn
    rw [← signTotal_perm (valuesAt_perm j hperm), signTotal_eq_of_signTotal? ht]
    exact fitsByte_of_signTotal? ht

end SparseRow

end Polyfield
