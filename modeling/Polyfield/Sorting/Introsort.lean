import Polyfield.Sorting.Heap

/-!
# Introsort

A quicksort that turns to heap sort when its recursion gets too deep, and to sorting networks for
short lists.  It is not stable: elements with equal keys come out in an order of their own.  The
rules below fix that order, and whoever adds up numbers with equal keys one by one sees it in the
partial sums.

* `introsort_perm` : the result has the elements of the list.
-/

namespace Polyfield

namespace Sorting

variable {α : Type} (key : α → Nat)

/-- Sort by keys, elements with equal keys in their order. -/
def stableSort (xs : List α) : List α := xs.mergeSort fun a b => key a ≤ key b

/-! ## Short lists -/

/-- The longest list that is sorted by networks. -/
def shortLength : Nat := 32

/-- Sort the first thirteen or the first nine elements by a network, if there are so many. -/
def sortStart (xs : List α) : List α :=
  if 13 ≤ xs.length then runNetwork key network13 (xs.take 13) ++ xs.drop 13
  else if 9 ≤ xs.length then runNetwork key network9 (xs.take 9) ++ xs.drop 9
  else xs

/-- Sort a short list: the start of it, or the starts of its halves, by networks, and then the
whole by a stable sort. -/
def sortShort (xs : List α) : List α :=
  let half := xs.length / 2
  stableSort key <|
    if xs.length < 18 then sortStart key xs
    else sortStart key (xs.take half) ++ sortStart key (xs.drop half)

/-! ## The pivot -/

/-- The position with the middle key of three. -/
def medianOfThree (v : Array α) (a b c : Nat) : Nat :=
  let below := isLess key v a b
  if below != isLess key v a c then a
  else if isLess key v b c != below then c
  else b

/-- The position of a middle key: of three positions, each replaced by the position of a middle
key of the `n` elements from there on if `n` is at least eight. -/
def recursiveMedian (v : Array α) (n a b c : Nat) : Nat :=
  if n < 8 then medianOfThree key v a b c
  else
    let m := n / 8
    let refine (i : Nat) := recursiveMedian v m i (i + 4 * m) (i + 7 * m)
    medianOfThree key v (refine a) (refine b) (refine c)
termination_by n

/-- The position of the pivot of a partition. -/
def pivotPosition (v : Array α) : Nat :=
  let n := v.size / 8
  recursiveMedian key v n 0 (4 * n) (7 * n)

/-! ## Partition -/

/-- One step of a partition.  The state is an array whose first elements are the lower part, and
the number of these; the elements up to position `i` are the upper part.  The element at `i`
changes places with the first of the upper part, and joins the lower part if it is below. -/
def partitionStep (below : α → Bool) : Array α × Nat → Nat → Array α × Nat
  | (v, n), i =>
    let joins := v[i]?.any below
    (v.swapIfInBounds n i, if joins then n + 1 else n)

/-- The elements that are below, and the others.  The first element is looked at last. -/
def partition (below : α → Bool) (xs : List α) : List α × List α :=
  let (v, n) := (List.range xs.length).foldl (partitionStep below) (xs.rotateLeft.toArray, 0)
  v.toList.splitAt n

/-! ## Quicksort -/

/-- Sort by partitions, at most `depth` within one another.  The pivot stands before the others
and then changes places with the last element of the lower part, which so comes first.  The
`floor` is the key of the last pivot before the elements, none of which has a smaller key.  A pivot
whose key is the floor separates the elements with its key from those with larger keys, and only
these remain to be sorted. -/
def quicksort : Nat → Option Nat → List α → List α
  | 0, _, xs => if xs.length ≤ shortLength then sortShort key xs else heapSort key xs
  | depth + 1, floor, xs =>
    if xs.length ≤ shortLength then sortShort key xs
    else
      let v := xs.toArray
      match (v.swapIfInBounds 0 (pivotPosition key v)).toList with
      | [] => []
      | pivot :: rest =>
        if floor.any (key pivot ≤ ·) then
          let (lower, upper) := partition (key · ≤ key pivot) rest
          lower.rotateRight ++ pivot :: quicksort depth none upper
        else
          let (lower, upper) := partition (key · < key pivot) rest
          quicksort depth floor lower.rotateRight ++
            pivot :: quicksort depth (some (key pivot)) upper

/-- Whether a list is in order, or each key is smaller than the one before it. -/
def isRun (xs : List α) : Bool :=
  let steps := xs.zip xs.tail
  steps.all (fun s => key s.1 ≤ key s.2) || steps.all (fun s => key s.2 < key s.1)

/-- Sort by keys.  Lists of at most twenty elements and runs are sorted stably. -/
def introsort (xs : List α) : List α :=
  if xs.length ≤ 20 || isRun key xs then stableSort key xs
  else quicksort key (2 * xs.length.log2) none xs

/-! ## Nothing is lost -/

theorem rotateLeft_perm (xs : List α) : xs.rotateLeft.Perm xs := by
  unfold List.rotateLeft
  dsimp only
  split
  · exact List.Perm.refl xs
  · exact List.perm_append_comm.trans (List.Perm.of_eq (List.take_append_drop _ xs))

theorem rotateRight_perm (xs : List α) : xs.rotateRight.Perm xs := by
  unfold List.rotateRight
  dsimp only
  split
  · exact List.Perm.refl xs
  · exact List.perm_append_comm.trans (List.Perm.of_eq (List.take_append_drop _ xs))

theorem stableSort_perm (xs : List α) : (stableSort key xs).Perm xs := List.mergeSort_perm xs _

theorem sortStart_perm (xs : List α) : (sortStart key xs).Perm xs := by
  have h (network : List (Nat × Nat)) (n : Nat) :
      (runNetwork key network (xs.take n) ++ xs.drop n).Perm xs := by
    have := (runNetwork_perm key network (xs.take n)).append_right (xs.drop n)
    rwa [List.take_append_drop] at this
  unfold sortStart
  split
  · exact h _ _
  · split
    · exact h _ _
    · exact List.Perm.refl xs

theorem sortShort_perm (xs : List α) : (sortShort key xs).Perm xs := by
  refine (stableSort_perm key _).trans ?_
  split
  · exact sortStart_perm key xs
  · have := (sortStart_perm key (xs.take (xs.length / 2))).append
      (sortStart_perm key (xs.drop (xs.length / 2)))
    rwa [List.take_append_drop] at this

theorem foldl_partitionStep_perm (below : α → Bool) (is : List Nat) (s : Array α × Nat) :
    (is.foldl (partitionStep below) s).1.Perm s.1 := by
  induction is generalizing s with
  | nil => exact Array.Perm.refl s.1
  | cons i is ih => exact (ih _).trans (swapIfInBounds_perm s.1 s.2 i)

theorem partition_perm (below : α → Bool) (xs : List α) :
    ((partition below xs).1 ++ (partition below xs).2).Perm xs := by
  have h := foldl_partitionStep_perm below (List.range xs.length) (xs.rotateLeft.toArray, 0)
  simpa [partition, List.splitAt_eq] using h.toList.trans (rotateLeft_perm xs)

/-- The sorted parts of a partition, with the pivot between them. -/
theorem append_pivot_perm {below : α → Bool} {pivot : α} {rest ls us : List α}
    (hl : ls.Perm (partition below rest).1.rotateRight)
    (hu : us.Perm (partition below rest).2) : (ls ++ pivot :: us).Perm (pivot :: rest) :=
  List.perm_middle.trans <|
    (((hl.trans (rotateRight_perm _)).append hu).trans (partition_perm below rest)).cons pivot

theorem quicksort_perm (depth : Nat) (floor : Option Nat) (xs : List α) :
    (quicksort key depth floor xs).Perm xs := by
  induction depth generalizing floor xs with
  | zero =>
    rw [quicksort]
    split
    · exact sortShort_perm key xs
    · exact heapSort_perm key xs
  | succ depth ih =>
    rw [quicksort]
    have hswap := (swapIfInBounds_perm xs.toArray 0 (pivotPosition key xs.toArray)).toList
    split
    · exact sortShort_perm key xs
    · dsimp only
      split <;> rename_i hv <;> rw [hv] at hswap
      · exact hswap
      · refine List.Perm.trans ?_ hswap
        split
        · exact append_pivot_perm (List.Perm.refl _) (ih none _)
        · exact append_pivot_perm (ih floor _) (ih _ _)

theorem introsort_perm (xs : List α) : (introsort key xs).Perm xs := by
  unfold introsort
  split
  · exact stableSort_perm key xs
  · exact quicksort_perm key _ none xs

end Sorting

end Polyfield
