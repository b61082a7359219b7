/-!
# Schedules

How a bulk evaluation is divided when it is large enough to be divided: the order in which
independent parts are done, and the tree in which sums over the cells are merged.  Every
evaluation has to answer the same under all schedules.
-/

namespace Polyfield

/-- How contributions of cells are gathered. -/
inductive Reduction
  /-- Nothing is gathered. -/
  | empty
  /-- One task adds the contributions of some cells, one after the other. -/
  | task (cells : List Nat)
  /-- The sums of two parts are added. -/
  | merge (left right : Reduction)

namespace Reduction

/-- The cells of a reduction from left to right. -/
def cells : Reduction → List Nat
  | empty => []
  | task cs => cs
  | merge l r => l.cells ++ r.cells

end Reduction

/-- The division of a bulk evaluation. -/
structure Schedule where
  /-- The order in which so many independent parts are done. -/
  order : Nat → List Nat
  /-- How the contributions of so many cells are gathered. -/
  reduction : Nat → Reduction

namespace Schedule

/-- One part after the other, and all cells in one task. -/
def sequential : Schedule := ⟨List.range, fun n => .task (List.range n)⟩

/-- Every part is done exactly once, and every cell gathered exactly once, in order. -/
structure Valid (s : Schedule) : Prop where
  order_perm : ∀ n, (s.order n).Perm (List.range n)
  cells_reduction : ∀ n, (s.reduction n).cells = List.range n

theorem valid_sequential : sequential.Valid := ⟨fun _ => .refl _, fun _ => rfl⟩

end Schedule

end Polyfield
