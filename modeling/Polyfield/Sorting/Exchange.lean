/-!
# Exchanges

Sorting by exchanges of two elements.  A comparator names two positions and exchanges their
elements if the second has the smaller key; a network is a list of comparators, which are applied
one after the other.  Elements with equal keys are not kept in their order.

* `exchangeIfLess_perm`, `runNetwork_perm` : elements only change places.
-/

namespace Polyfield

namespace Sorting

variable {α : Type} (key : α → Nat)

/-- Whether the key at position `i` is smaller than the key at position `j`; never true if one of
the positions lies outside. -/
def isLess (v : Array α) (i j : Nat) : Bool :=
  match v[i]?, v[j]? with
  | some a, some b => key a < key b
  | _, _ => false

/-- Exchange the elements at two positions if the second has the smaller key. -/
def exchangeIfLess (v : Array α) (i j : Nat) : Array α :=
  if isLess key v j i then v.swapIfInBounds i j else v

/-- Apply the comparators of a network. -/
def runNetwork (network : List (Nat × Nat)) (xs : List α) : List α :=
  (network.foldl (fun v c => exchangeIfLess key v c.1 c.2) xs.toArray).toList

/-- A network that sorts nine elements. -/
def network9 : List (Nat × Nat) :=
  [(0, 3), (1, 7), (2, 5), (4, 8), (0, 7), (2, 4), (3, 8), (5, 6), (0, 2), (1, 3), (4, 5), (7, 8),
    (1, 4), (3, 6), (5, 7), (0, 1), (2, 4), (3, 5), (6, 8), (2, 3), (4, 5), (6, 7), (1, 2), (3, 4),
    (5, 6)]

/-- A network that sorts thirteen elements. -/
def network13 : List (Nat × Nat) :=
  [(0, 12), (1, 10), (2, 9), (3, 7), (5, 11), (6, 8), (1, 6), (2, 3), (4, 11), (7, 9), (8, 10),
    (0, 4), (1, 2), (3, 6), (7, 8), (9, 10), (11, 12), (4, 6), (5, 9), (8, 11), (10, 12), (0, 5),
    (3, 8), (4, 7), (6, 11), (9, 10), (0, 1), (2, 5), (6, 9), (7, 8), (10, 11), (1, 3), (2, 4),
    (5, 6), (9, 10), (1, 2), (3, 4), (5, 7), (6, 8), (2, 3), (4, 5), (6, 7), (8, 9), (3, 4), (5, 6)]

theorem swapIfInBounds_perm (v : Array α) (i j : Nat) : (v.swapIfInBounds i j).Perm v := by
  unfold Array.swapIfInBounds
  split
  · split
    · exact Array.swap_perm _ _
    · exact Array.Perm.refl v
  · exact Array.Perm.refl v

theorem exchangeIfLess_perm (v : Array α) (i j : Nat) : (exchangeIfLess key v i j).Perm v := by
  unfold exchangeIfLess
  split
  · exact swapIfInBounds_perm v i j
  · exact Array.Perm.refl v

/-- A loop whose steps permute an array permutes it. -/
theorem foldl_array_perm {β : Type} (step : Array α → β → Array α)
    (h : ∀ v b, (step v b).Perm v) (bs : List β) (v : Array α) : (bs.foldl step v).Perm v := by
  induction bs generalizing v with
  | nil => exact Array.Perm.refl v
  | cons b bs ih => exact (ih (step v b)).trans (h v b)

theorem runNetwork_perm (network : List (Nat × Nat)) (xs : List α) :
    (runNetwork key network xs).Perm xs := by
  simpa [runNetwork] using (foldl_array_perm _ (fun v c => exchangeIfLess_perm key v c.1 c.2)
    network xs.toArray).toList

end Sorting

end Polyfield
