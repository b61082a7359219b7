import Polyfield.Sorting.Exchange

/-!
# Heap sort

The first `m` elements of an array are a heap if no key is smaller than the keys at its two
children; the children of position `i` are `2 * i + 1` and `2 * i + 2`.

* `heapSort_perm` : the result has the elements of the list.
-/

namespace Polyfield

namespace Sorting

variable {α : Type} (key : α → Nat)

/-- The child of a position with the larger key, the first one if the keys are equal. -/
def largerChild (m : Nat) (v : Array α) (node : Nat) : Nat :=
  let c := 2 * node + 1
  if c + 1 < m && isLess key v c (c + 1) then c + 1 else c

theorem lt_largerChild (m : Nat) (v : Array α) (node : Nat) : node < largerChild key m v node := by
  unfold largerChild
  dsimp only
  split <;> omega

/-- Let an element sink in the heap of the first `m` elements until no child has a larger key. -/
def siftDown (m : Nat) (v : Array α) (node : Nat) : Array α :=
  let c := largerChild key m v node
  if c < m ∧ isLess key v node c = true then siftDown m (v.swapIfInBounds node c) c
  else v
termination_by m - node
decreasing_by
  have := lt_largerChild key m v node
  omega

/-- Make a heap of a whole array. -/
def heapify (v : Array α) : Array α :=
  (List.range (v.size / 2)).reverse.foldl (siftDown key v.size) v

/-- Take the largest element off the heap of the first `m + 1` elements, and put it behind the
heap of the others. -/
def popLargest (v : Array α) (m : Nat) : Array α := siftDown key m (v.swapIfInBounds 0 m) 0

/-- Sort by keys through a heap. -/
def heapSort (xs : List α) : List α :=
  ((List.range xs.length).reverse.foldl (popLargest key) (heapify key xs.toArray)).toList

theorem siftDown_perm (m : Nat) (v : Array α) (node : Nat) : (siftDown key m v node).Perm v := by
  fun_induction siftDown key m v node with
  | case1 v node c h ih => exact ih.trans (swapIfInBounds_perm v node c)
  | case2 v node c h => exact Array.Perm.refl v

theorem heapSort_perm (xs : List α) : (heapSort key xs).Perm xs := by
  have hpop := foldl_array_perm (popLargest key)
    (fun v m => (siftDown_perm key m _ 0).trans (swapIfInBounds_perm v 0 m))
    (List.range xs.length).reverse (heapify key xs.toArray)
  have hheap := foldl_array_perm (siftDown key xs.toArray.size)
    (fun v node => siftDown_perm key _ v node) (List.range (xs.toArray.size / 2)).reverse
    xs.toArray
  simpa [heapSort] using (hpop.trans hheap).toList

end Sorting

end Polyfield
